import Preflight.Log.Filter
import Preflight.Style.Cursor

/-!
This module contains the log: a filter that says which events are of interest, and the line that an
event is written as.
-/

namespace Preflight

structure Log where
  filter : Log.Filter
  isStyled : Bool
  deriving DecidableEq, Repr

namespace Log

def silent : Log := ⟨[], false⟩

def styled (log : Log) (code : Nat) (t : Text) : Text :=
  if log.isStyled then
    Style.introducer ++ Text.decimal code ++ ['m'] ++ t ++ Style.introducer ++ ['0', 'm']
  else
    t

def dim : Nat := 2

def italic : Nat := 3

def line (log : Log) (event : Event) : Text :=
  if log.filter.admits event then
    log.styled event.level.colorCode (Text.padLeft ' ' 5 event.level.name.toList) ++ ' '
      :: log.styled dim event.target.toList ++ log.styled dim [':'] ++ ' ' :: event.message.toList
      ++ event.fields.flatMap (fun (name, value) =>
        ' ' :: log.styled italic name.toList ++ log.styled dim ['='] ++ value)
      ++ ['\n']
  else
    []

end Log

end Preflight
