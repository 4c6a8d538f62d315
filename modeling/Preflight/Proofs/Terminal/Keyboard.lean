import Preflight.Proofs.Terminal.Reader
import Preflight.Terminal.LineEditor

/-!
This module contains what a terminal sends when something is typed on its keyboard, and that the
decoder recognizes the keys among it.
-/

namespace Preflight

namespace Key

def letter? : Key → Option UInt8
  | .arrowUp => some 0x41
  | .arrowDown => some 0x42
  | .arrowRight => some 0x43
  | .arrowLeft => some 0x44
  | .home => some 0x48
  | .end_ => some 0x46
  | _ => none

def number? : Key → Option Nat
  | .home => some 1
  | .insert => some 2
  | .delete => some 3
  | .end_ => some 4
  | .pageUp => some 5
  | .pageDown => some 6
  | _ => none

end Key

namespace Decoder

def decimalValue (number : Nat) (digits : List UInt8) : Nat :=
  digits.foldl (fun number digit => number * 10 + (digit.toNat - 0x30)) number

theorem pushDigit_min (number digit : Nat) :
    pushDigit (min number maxParameter) digit = min (number * 10 + digit) maxParameter := by
  unfold pushDigit maxParameter
  omega

theorem firstNumber_min (number : Nat) (parameters : List UInt8) :
    firstNumber (min number maxParameter) parameters =
      min (decimalValue number (parameters.takeWhile (· ≠ 0x3B))) maxParameter := by
  induction parameters generalizing number with
  | nil => rfl
  | cons byte parameters ih =>
    rw [firstNumber]
    split
    · next h => simp [h, decimalValue]
    · next h => simp [h, decimalValue, pushDigit_min, ih]

end Decoder

namespace Key

/--
Whether a key is sent as a control sequence with these parameters and this last byte. Of the
parameters only the number in front of them matters, and it may be written with any digits.
-/
def IsSentAs (key : Key) (parameters : List UInt8) (final : UInt8) : Prop :=
  parameters.all Decoder.isParameter = true ∧
    (key.letter? = some final ∨
      final = 0x7E ∧
        key.number? = some (Decoder.decimalValue 0 (parameters.takeWhile (· ≠ 0x3B))))

instance (key : Key) (parameters : List UInt8) (final : UInt8) :
    Decidable (key.IsSentAs parameters final) :=
  inferInstanceAs (Decidable (_ ∧ _))

theorem finalKey?_of_letter? {key : Key} {final : UInt8} (h : key.letter? = some final)
    (first : Nat) :
    Decoder.finalKey? first final = some key ∧ Decoder.isParameter final = false := by
  cases key <;> cases h <;> exact ⟨rfl, rfl⟩

theorem finalKey?_of_number? {key : Key} {number : Nat} (h : key.number? = some number) :
    Decoder.finalKey? (min number Decoder.maxParameter) 0x7E = some key := by
  cases key <;> cases h <;> rfl

theorem finalKey?_of_isSentAs {key : Key} {parameters : List UInt8} {final : UInt8}
    (h : key.IsSentAs parameters final) :
    Decoder.finalKey? (Decoder.firstNumber 0 parameters) final = some key ∧
      Decoder.isParameter final = false := by
  obtain ⟨_, h | ⟨rfl, h⟩⟩ := h
  · apply finalKey?_of_letter? h
  · constructor
    · have hfirst := Decoder.firstNumber_min 0 parameters
      rw [Nat.zero_min] at hfirst
      rw [hfirst]
      apply finalKey?_of_number? h
    · rfl

end Key

inductive Stroke where
  | char (c : Char) (isText : 0x20 ≤ c.toNat ∧ c.toNat ≠ 0x7F)
  | key (key : Key) (parameters : List UInt8) (final : UInt8)
    (isSent : key.IsSentAs parameters final)
  | backspace
  | enter (byte : UInt8) (isEnter : byte = 0x0D ∨ byte = 0x0A)
  | ctrlD
  | ctrlL
  | alt (byte : UInt8) (isAlt : byte ≠ 0x5B ∧ byte ≠ Reader.ctrlC)
  | control (byte : UInt8)
    (isIdle : byte < 0x20 ∧
      byte ∉ [Reader.ctrlC, Prompt.ctrlD, LineEditor.ctrlL, 0x0A, 0x0D, 0x1B])

def Stroke.bytes : Stroke → List UInt8
  | char c _ => Utf8.encodeChar c
  | key _ parameters final _ => 0x1B :: 0x5B :: parameters ++ [final]
  | backspace => [0x7F]
  | enter byte _ => [byte]
  | ctrlD => [Prompt.ctrlD]
  | ctrlL => [LineEditor.ctrlL]
  | alt byte _ => [0x1B, byte]
  | control byte _ => [byte]

end Preflight
