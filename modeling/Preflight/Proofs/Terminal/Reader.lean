import Preflight.Proofs.Terminal.Key
import Preflight.Terminal.Reader

/-!
This module contains what reading a key comes to when there is a byte on the input, and that Ctrl-C
has no place in the middle of an escape sequence.
-/

namespace Preflight

namespace Reader

theorem readKey_byte_cons (byte : UInt8) (script : List InputItem) (decoder : Decoder) :
    readKey ⟨.byte byte :: script, false, decoder⟩ =
      if byte = ctrlC then (.error .interrupted, ⟨script, false, .ground⟩)
      else (.ok (byte, (decoder.feed byte).2), ⟨script, false, (decoder.feed byte).1⟩) := by
  unfold readKey readByte await
  rw [if_neg Bool.false_ne_true]
  by_cases h : byte = ctrlC
  · simp [h]
  · simp [h]

theorem ne_ctrlC_of_isParameter {byte : UInt8} (h : Decoder.isParameter byte = true) :
    byte ≠ ctrlC := by
  rintro rfl
  contradiction

theorem ne_ctrlC_of_control {parameters : List UInt8} {final : UInt8}
    {areParameters : parameters.all Decoder.isParameter = true}
    {isFinal : Decoder.isParameter final = false}
    (h : ctrlC ∉ EscapeSequence.bytes (.control parameters final areParameters isFinal)) :
    final ≠ ctrlC := by
  rintro rfl
  simp [EscapeSequence.bytes] at h

end Reader

end Preflight
