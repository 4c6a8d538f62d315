import Preflight.Session

/-!
This module contains the program. It sees the variables, the input, the working directory and the
settings file of the computer that it runs on, but none of its programs: what a command line means is
checked and shown, and there is nothing to launch.
-/

namespace Preflight

def watchedVariables : List String :=
  ["PATH", "HOME", "XDG_CONFIG_HOME", "NO_COLOR", "COLOR", "CCHELL_CONFIG", "CCHELL_LOG",
    "CCHELL_LOG_FILE"]

def readEnvironment : IO Environment := do
  let values ← watchedVariables.mapM fun name => do
    return (← IO.getEnv name).map fun value => (name.toList, value.toList)
  return values.filterMap id

partial def readAll (input : IO.FS.Stream) (before : Utf8.Bytes) : IO Utf8.Bytes := do
  let bytes ← input.read 4096
  if bytes.isEmpty then return before else readAll input (before ++ bytes.toList)

def placeOf (start : Place) (path : Path) : Place :=
  path.moves.foldl
    (fun place move =>
      match move with
      | .child name => place ++ [name]
      | .parent => place.dropLast
      | .stay => place)
    (if path.isAbsolute then [] else start)

def readFiles (options : Options) (environment : Environment) : IO FileSystem := do
  let directory := placeOf [] (Path.ofText (← IO.currentDir).toString.toList)
  let files := FileSystem.empty.insert directory (.directory [])
  let files := { files with workingDirectory := some directory }
  let path := (Session.namedConfigFile? options environment).getD
    (Session.defaultConfigFile environment)
  try
    let bytes ← IO.FS.readBinFile (String.ofList path.display)
    return files.insert (placeOf directory path) (.file false (.data bytes.toList))
  catch _ =>
    return files

def readWorld (options : Options) : IO World := do
  let environment ← readEnvironment
  let files ← readFiles options environment
  let bytes ← if options.command.isEmpty then readAll (← IO.getStdin) [] else pure []
  return { World.start files environment (.ofPipe bytes) with
    errorsAreShown := ← (← IO.getStderr).isTty }

end Preflight

open Preflight in
def main (arguments : List String) : IO UInt32 := do
  let arguments := arguments.map String.toList
  let world ←
    match Options.ofArguments arguments with
    | .ok options => readWorld options
    | .error _ => pure (World.start .empty [] (.ofPipe []))
  let (code, world) := runProgram arguments world
  (← IO.getStdout).write ⟨world.output.toArray⟩
  (← IO.getStderr).write ⟨world.errors.toArray⟩
  return UInt32.ofNat code
