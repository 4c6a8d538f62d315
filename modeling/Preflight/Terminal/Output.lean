import Preflight.Terminal.Reader

/-!
This module contains an output that can be broken: what has been written to it, and when it stops
working.
-/

namespace Preflight

/--
An output with what has been written and how often it was flushed. If there is a `brokenFlush`, the
flush of that number fails. If there is a `brokenAfter`, every write fails once that many flushes
have happened.
-/
structure Output where
  written : Text
  flushes : Nat
  brokenFlush : Option Nat
  brokenAfter : Option Nat
  deriving DecidableEq, Repr

namespace Output

def working : Output := ⟨[], 0, none, none⟩

def isBroken (output : Output) : Bool := output.brokenAfter.any (· ≤ output.flushes)

def write (output : Output) (t : Text) : Except ReadError Unit × Output :=
  if output.isBroken then (.error (.io (.os .brokenPipe)), output)
  else (.ok (), { output with written := output.written ++ t })

def flush (output : Output) : Except ReadError Unit × Output :=
  let output := { output with flushes := output.flushes + 1 }
  if output.brokenFlush = some output.flushes then (.error (.io (.os .brokenPipe)), output)
  else (.ok (), output)

def emit (output : Output) (t : Text) : Except ReadError Unit × Output :=
  match output.write t with
  | (.ok (), output) => output.flush
  | (.error error, output) => (.error error, output)

end Output

structure Console where
  reader : Reader
  output : Output
  deriving DecidableEq, Repr

end Preflight
