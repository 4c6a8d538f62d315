import Preflight.Terminal.Key

/-!
This module contains the shape of complete escape sequences and the way of the decoder through them.
-/

namespace Preflight

namespace Decoder

def after (decoder : Decoder) (bytes : List UInt8) : Decoder :=
  bytes.foldl (fun decoder byte => (decoder.feed byte).1) decoder

def isParameter (byte : UInt8) : Bool := (0x30 ≤ byte && byte ≤ 0x39) || byte == 0x3B

def firstNumber (number : Nat) : List UInt8 → Nat
  | [] => number
  | byte :: bytes =>
    if byte = 0x3B then number else firstNumber (pushDigit number (byte.toNat - 0x30)) bytes

theorem finalKey?_ne_enter (first : Nat) (byte : UInt8) : finalKey? first byte ≠ some .enter := by
  unfold finalKey?
  repeat' split
  all_goals simp

theorem feed_escape {byte : UInt8} (h : byte ≠ 0x5B) :
    escape.feed byte =
      (ground, .event ⟨.unknown, { Modifiers.none with alt := true }⟩) := by
  unfold feed
  dsimp only
  rw [if_neg h]

section feed

variable (first second : Nat) (semicolon : Bool) {byte : UInt8}

theorem feed_digit (h : 0x30 ≤ byte ∧ byte ≤ 0x39) :
    (sequence first second false).feed byte =
      (sequence (pushDigit first (byte.toNat - 0x30)) second false, .pending) := by
  unfold feed
  simp only [h, and_self, if_true]
  rfl

theorem feed_semicolon :
    (sequence first second semicolon).feed 0x3B = (sequence first second true, .pending) := by
  unfold feed
  rw [if_neg]
  · rfl
  · decide

theorem feed_parameter_of_semicolon (h : isParameter byte = true) :
    ∃ number, (sequence first second true).feed byte = (sequence first number true, .pending) := by
  unfold isParameter at h
  unfold feed
  simp only [if_true]
  split
  · exact ⟨_, rfl⟩
  · split
    · exact ⟨_, rfl⟩
    · simp_all

theorem feed_final (h : isParameter byte = false) :
    (sequence first second semicolon).feed byte =
      match finalKey? first byte with
      | some key => (ground, .event ⟨key, .ofCode (if semicolon then second else 1)⟩)
      | none => (ground, .unrecognized) := by
  simp only [isParameter, Bool.or_eq_false_iff, Bool.and_eq_false_iff, decide_eq_false_iff_not,
    beq_eq_false_iff_ne] at h
  obtain ⟨hdigit, hsemicolon⟩ := h
  have hnotDigit : ¬(0x30 ≤ byte ∧ byte ≤ 0x39) := by
    intro ⟨hlow, hhigh⟩
    rcases hdigit with h | h
    · exact h hlow
    · exact h hhigh
  unfold feed
  dsimp only
  refine (if_neg hnotDigit).trans ((if_neg hsemicolon).trans ?_)
  cases finalKey? first byte <;> rfl

theorem feed_parameter (h : isParameter byte = true) :
    ∃ first' second' semicolon', (sequence first second semicolon).feed byte =
        (sequence first' second' semicolon', .pending) ∧
      ∀ bytes, (if semicolon' then first' else firstNumber first' bytes) =
        if semicolon then first else firstNumber first (byte :: bytes) := by
  cases semicolon with
  | true =>
    obtain ⟨number, heq⟩ := feed_parameter_of_semicolon first second h
    exact ⟨first, number, true, heq, fun _ => rfl⟩
  | false =>
    by_cases hsemicolon : byte = 0x3B
    · subst hsemicolon
      exact ⟨first, second, true, feed_semicolon first second false, fun _ => rfl⟩
    · have hdigit : 0x30 ≤ byte ∧ byte ≤ 0x39 := by
        unfold isParameter at h
        simp_all
      refine ⟨_, _, _, feed_digit first second hdigit, ?_⟩
      intro bytes
      rw [if_neg Bool.false_ne_true, if_neg Bool.false_ne_true, firstNumber, if_neg hsemicolon]

theorem exists_after_parameters {parameters : List UInt8}
    (h : parameters.all isParameter = true) :
    ∃ second' semicolon', (sequence first second semicolon).after parameters =
      sequence (if semicolon then first else firstNumber first parameters) second' semicolon' := by
  induction parameters generalizing first second semicolon with
  | nil =>
    refine ⟨second, semicolon, ?_⟩
    cases semicolon <;> rfl
  | cons byte parameters ih =>
    rw [List.all_cons, Bool.and_eq_true] at h
    obtain ⟨first', next, semicolon', hfeed, hfirst⟩ := feed_parameter first second semicolon h.1
    obtain ⟨second', last, hafter⟩ := ih first' next semicolon' h.2
    refine ⟨second', last, ?_⟩
    rw [← hfirst parameters, ← hafter, after, List.foldl_cons, hfeed]
    rfl

end feed

theorem finalKey?_eq_none {parameters : List UInt8} {final : UInt8}
    (hparameters : parameters.all isParameter = true) (hfinal : isParameter final = false)
    (h : ((ground.after (0x1B :: 0x5B :: parameters)).feed final).2 = .unrecognized) :
    finalKey? (firstNumber 0 parameters) final = none := by
  obtain ⟨second, semicolon, hafter⟩ := exists_after_parameters 0 0 false hparameters
  change (((sequence 0 0 false).after parameters).feed final).2 = _ at h
  rw [hafter, feed_final _ _ _ hfinal, if_neg Bool.false_ne_true] at h
  cases hkey : finalKey? (firstNumber 0 parameters) final with
  | none => rfl
  | some key =>
    rw [hkey] at h
    contradiction

end Decoder

/--
A complete escape sequence: Alt with a character, or what a terminal sends for other keys. Not every
one stands for a key.
-/
inductive EscapeSequence where
  | alt (byte : UInt8) (ne : byte ≠ 0x5B)
  | control (parameters : List UInt8) (final : UInt8)
    (areParameters : parameters.all Decoder.isParameter = true)
    (isFinal : Decoder.isParameter final = false)

namespace EscapeSequence

def bytes : EscapeSequence → List UInt8
  | alt byte _ => [0x1B, byte]
  | control parameters final _ _ => 0x1B :: 0x5B :: parameters ++ [final]

end EscapeSequence

end Preflight
