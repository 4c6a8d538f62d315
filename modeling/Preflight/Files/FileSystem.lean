import Preflight.Files.OsError
import Preflight.Files.Path
import Preflight.Process

/-!
This module contains file systems with directories, regular files and symbolic links, and the way
from a path to what it leads to.

They are seen by a process that may list and search every directory and read every file. So nothing
fails for want of a permission here, and of the permissions of a file only those matter that allow
someone to execute it.
-/

namespace Preflight

inductive Content where
  | data (bytes : Utf8.Bytes)
  | program (program : Program)

inductive FileNode where
  | file (executable : Bool) (content : Content)
  | link (target : Path)
  | directory (entries : List (Name × FileNode))

abbrev Place := List Name

namespace FileNode

def find? (node : FileNode) : Place → Option FileNode
  | [] => some node
  | name :: names =>
    match node with
    | directory entries =>
      match entries.lookup name with
      | some node => find? node names
      | none => none
    | _ => none

def isDirectory : FileNode → Bool
  | directory _ => true
  | _ => false

def isFile : FileNode → Bool
  | file _ _ => true
  | _ => false

def isExecutable : FileNode → Bool
  | file executable _ => executable
  | _ => false

end FileNode

structure FileSystem where
  root : List (Name × FileNode)
  -- The working directory may be gone.
  workingDirectory : Option Place

namespace FileSystem

def empty : FileSystem := ⟨[], some []⟩

def node? (files : FileSystem) (place : Place) : Option FileNode :=
  (FileNode.directory files.root).find? place

def maxLinks : Nat := 40

def maxNameLength : Nat := 255

def maxPathLength : Nat := 4095

/--
Where the steps lead from a place. Links are followed, the last one too, as long as there are not
more than `links` of them.
-/
def follow (files : FileSystem) (links : Nat) (place : Place) (steps : List Step) :
    Except OsError Place :=
  match steps with
  | [] => .ok place
  | step :: steps =>
    match files.node? place with
    | some (.directory entries) =>
      match step with
      | .stay => follow files links place steps
      | .parent => follow files links place.dropLast steps
      | .child name =>
        if maxNameLength < name.length then
          .error .nameTooLong
        else
          match entries.lookup name with
          | none => .error .missing
          | some (.link target) =>
            match links with
            | 0 => .error .tooManyLinks
            | links + 1 =>
              if target = [] then
                .error .missing
              else
                let start := if target.isAbsolute then [] else place
                follow files links start (target.steps ++ steps)
          | some _ => follow files links (place ++ [name]) steps
    | _ => .error .notDirectory
termination_by (links, steps.length)

def locate (files : FileSystem) (path : Path) : Except OsError Place :=
  if path = [] then
    .error .missing
  else if maxPathLength < path.length then
    .error .nameTooLong
  else if path.isAbsolute then
    files.follow maxLinks [] path.steps
  else
    match files.workingDirectory with
    | some place => files.follow maxLinks place path.steps
    | none => .error .missing

def stat (files : FileSystem) (path : Path) : Except OsError FileNode := do
  match files.node? (← files.locate path) with
  | some node => .ok node
  | none => .error .missing

def pathExists (files : FileSystem) (path : Path) : Bool := (files.stat path).isOk

def isFile (files : FileSystem) (path : Path) : Bool :=
  match files.stat path with
  | .ok node => node.isFile
  | .error _ => false

def isDirectory (files : FileSystem) (path : Path) : Bool :=
  match files.stat path with
  | .ok node => node.isDirectory
  | .error _ => false

def isExecutable (files : FileSystem) (path : Path) : Bool :=
  match files.stat path with
  | .ok node => node.isExecutable
  | .error _ => false

def pathOf (place : Place) : Path := Path.slash :: Path.ofMoves (place.map .child)

def currentDirectory (files : FileSystem) : Except OsError Path :=
  match files.workingDirectory with
  | some place => .ok (pathOf place)
  | none => .error .missing

def canonical (files : FileSystem) (path : Path) : Except OsError Path :=
  pathOf <$> files.locate path

def list (files : FileSystem) (path : Path) : Except OsError (List Name) := do
  match ← files.stat path with
  | .directory entries => .ok (entries.map (·.1))
  | _ => .error .notDirectory

def read (files : FileSystem) (path : Path) : Except OsError Utf8.Bytes := do
  match ← files.stat path with
  | .file _ (.data bytes) => .ok bytes
  -- What a program is made of is not modelled, except that it can be read.
  | .file _ (.program _) => .ok [0x7F]
  | _ => .error .isDirectory

def insertEntry (node : FileNode) : Place → List (Name × FileNode) → List (Name × FileNode)
  | [], entries => entries
  | [name], entries =>
    match entries.lookup name with
    | none => entries ++ [(name, node)]
    | some old =>
      -- A directory that is there keeps what is in it.
      if old.isDirectory && node.isDirectory then
        entries
      else
        entries.map fun entry => if entry.1 = name then (name, node) else entry
  | name :: names, entries =>
    match entries.lookup name with
    | none => entries ++ [(name, .directory (insertEntry node names []))]
    | some (.directory below) =>
      let below := insertEntry node names below
      entries.map fun entry => if entry.1 = name then (name, .directory below) else entry
    | some _ => entries

def insert (files : FileSystem) (place : Place) (node : FileNode) : FileSystem :=
  { files with root := insertEntry node place files.root }

def makeFile (files : FileSystem) (directory : Path) (name : Name) : Except OsError FileSystem := do
  let place ← files.locate directory
  if (files.node? (place ++ [name])).isSome then return files
  else return files.insert (place ++ [name]) (.file false (.data []))

def makeDirectories (files : FileSystem) (path : Path) : Except OsError FileSystem :=
  go files [] path.moves
where
  start : Path := if path.isAbsolute then [Path.slash] else []
  go (files : FileSystem) (done : List Step) : List Step → Except OsError FileSystem
    | [] => .ok files
    | move :: moves =>
      let parent := if done = [] ∧ ¬ path.isAbsolute then [0x2E] else start ++ Path.ofMoves done
      let here := start ++ Path.ofMoves (done ++ [move])
      match files.stat here with
      -- That a directory is there already is no error.
      | .ok node =>
        if node.isDirectory then go files (done ++ [move]) moves
        else .error (if moves = [] then .alreadyExists else .notDirectory)
      | .error error =>
        match move, files.locate parent with
        | .child name, .ok place =>
          if error ≠ .missing then
            .error error
          else if (files.node? (place ++ [name])).isSome then
            .error .alreadyExists
          else
            go (files.insert (place ++ [name]) (.directory [])) (done ++ [move]) moves
        | _, _ => .error error

end FileSystem

end Preflight
