import Preflight.Files.OsError
import Preflight.Terminal.Key

/-!
This module contains the reading of single bytes and keys from an input that may be interrupted. The
input is given as the list of what happens on it, one item after the other.
-/

namespace Preflight

inductive InputError where
  | os (error : OsError)
  | other (text : Text)
  deriving DecidableEq, Repr

namespace InputError

def describe : InputError → Text
  | os error => error.describe
  | other text => text

def isRetried : InputError → Bool
  | os error => error = .interruptedCall
  | other _ => false

end InputError

inductive ReadError where
  | io (error : InputError)
  | interrupted
  | ended
  deriving DecidableEq, Repr

namespace ReadError

def message : ReadError → Text
  | io error => "read failed: ".toList ++ error.describe
  | interrupted => "interrupted".toList
  | ended => "end of input".toList

def code? : ReadError → Option Int
  | io (.os error) => some error.code
  | _ => none

end ReadError

inductive InputItem where
  | byte (byte : UInt8)
  -- The interrupt flag is raised while a read is waiting, and the read goes on waiting.
  | flag
  -- A read is cut short, and perhaps the flag has been raised before.
  | cut (raises : Bool)
  | failure (error : InputError)
  -- A read finds the input at its end, as every read does behind the last item.
  | ending
  deriving DecidableEq, Repr

structure Reader where
  script : List InputItem
  interrupted : Bool
  decoder : Decoder
  deriving DecidableEq, Repr

namespace Reader

def ofScript (script : List InputItem) : Reader := ⟨script, false, .ground⟩

def ofBytes (bytes : List UInt8) : Reader := ofScript (bytes.map .byte)

def resetDecoder (reader : Reader) : Reader := { reader with decoder := .ground }

def interrupt (reader : Reader) : Reader := { reader with interrupted := true }

def ctrlC : UInt8 := 0x03

def await : List InputItem → Bool → Except ReadError UInt8 × List InputItem × Bool
  | [], flag => (.error .ended, [], flag)
  | .byte byte :: script, flag =>
    (if byte = ctrlC then .error .interrupted else .ok byte, script, flag)
  | .flag :: script, _ => await script true
  | .cut raises :: script, flag =>
    if flag || raises then (.error .interrupted, script, false) else await script false
  | .failure error :: script, flag =>
    if error.isRetried then
      if flag then (.error .interrupted, script, false) else await script false
    else
      (.error (.io error), script, flag)
  | .ending :: script, flag => (.error .ended, script, flag)

/--
Read a byte. The interrupt flag is looked at before the read and whenever the read is cut short, and
it is lowered when it is found up. An interrupt makes the decoder forget a sequence that it is in
the middle of.
-/
def readByte (reader : Reader) : Except ReadError UInt8 × Reader :=
  if reader.interrupted then
    (.error .interrupted, ⟨reader.script, false, .ground⟩)
  else
    match await reader.script false with
    | (.error .interrupted, script, flag) => (.error .interrupted, ⟨script, flag, .ground⟩)
    | (result, script, flag) => (result, ⟨script, flag, reader.decoder⟩)

def readKey (reader : Reader) : Except ReadError (UInt8 × Decoded) × Reader :=
  match reader.readByte with
  | (.ok byte, reader) =>
    let (decoder, decoded) := reader.decoder.feed byte
    (.ok (byte, decoded), { reader with decoder := decoder })
  | (.error error, reader) => (.error error, reader)

theorem length_await_lt {script rest : List InputItem} {flag flag' : Bool} {byte : UInt8}
    (h : await script flag = (.ok byte, rest, flag')) : rest.length < script.length := by
  fun_induction await script flag <;> simp_all <;> omega

theorem length_readByte_lt {reader reader' : Reader} {byte : UInt8}
    (h : reader.readByte = (.ok byte, reader')) :
    reader'.script.length < reader.script.length := by
  unfold readByte at h
  split at h
  · simp at h
  · split at h
    · simp at h
    · rename_i result script flag _ hawait
      simp only [Prod.mk.injEq] at h
      obtain ⟨rfl, rfl⟩ := h
      exact length_await_lt hawait

theorem length_readKey_lt {reader reader' : Reader} {key : UInt8 × Decoded}
    (h : reader.readKey = (.ok key, reader')) : reader'.script.length < reader.script.length := by
  unfold readKey at h
  split at h
  · rename_i hbyte
    simp only [Prod.mk.injEq] at h
    obtain ⟨_, rfl⟩ := h
    have := length_readByte_lt hbyte
    exact this
  · simp at h

end Reader

end Preflight
