import Preflight.Files.FileSystem
import Preflight.Plan

/-!
This module contains the launching of a plan.
-/

namespace Preflight

inductive LaunchError where
  | nulByte
  | os (error : OsError)
  deriving DecidableEq, Repr

def LaunchError.describe : LaunchError → Text
  | nulByte => "nul byte found in provided data".toList
  | os error => error.describe

namespace Plan

def hasNul (plan : Plan) : Bool :=
  plan.path.contains 0 || plan.arguments.any (·.contains '\x00')
    || plan.assignments.any fun (name, value) => name.contains '\x00' || value.contains '\x00'

def launch (plan : Plan) (files : FileSystem) (environment : Environment) (input : Utf8.Bytes) :
    Except LaunchError Run :=
  if plan.hasNul then
    .error .nulByte
  else
    match files.stat plan.path with
    | .error error => .error (.os error)
    | .ok (.file true (.program program)) =>
      .ok (program.run plan.arguments.tail (plan.assignments.reverse ++ environment) input)
    | .ok (.file true (.data _)) => .error (.os .notExecutableFormat)
    | .ok _ => .error (.os .permissionDenied)

end Plan

end Preflight
