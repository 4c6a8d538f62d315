import Preflight.Files.FileSystem
import Preflight.Spelling

/-!
This module contains the programs that can be run by name.
-/

namespace Preflight

structure ProgramIndex where
  -- The first entry of a name is the one that counts.
  entries : List (Text × Path)
  deriving DecidableEq, Repr

structure Candidate where
  name : Text
  path : Path
  distance : Nat
  deriving DecidableEq, Repr

namespace Candidate

def ofEntry (typed : Text) (entry : Text × Path) : Candidate :=
  ⟨entry.1, entry.2, Spelling.distance typed entry.1⟩

def isCloser (a b : Candidate) : Bool :=
  a.distance < b.distance || (a.distance == b.distance && a.name < b.name)

def closer (a b : Candidate) : Candidate := if b.isCloser a then b else a

def nearest? (candidates : List Candidate) (maxDistance : Nat) : Option Candidate :=
  match candidates with
  | [] => none
  | first :: others =>
    let best := others.foldl closer first
    if best.distance ≤ maxDistance then some best else none

end Candidate

namespace ProgramIndex

def empty : ProgramIndex := ⟨[]⟩

def get? (index : ProgramIndex) (name : Text) : Option Path := index.entries.lookup name

def contains (index : ProgramIndex) (name : Text) : Bool := (index.get? name).isSome

def size (index : ProgramIndex) : Nat := index.entries.length

def insert (index : ProgramIndex) (name : Text) (path : Path) : ProgramIndex :=
  if index.contains name then index else ⟨index.entries ++ [(name, path)]⟩

def ofList (programs : List (Text × Path)) : ProgramIndex :=
  programs.foldl (fun index (name, path) => index.insert name path) empty

def sorted (index : ProgramIndex) : List (Text × Path) :=
  index.entries.mergeSort fun a b => !(b.1 < a.1)

def defaultMaxDistance : Nat := 2

def maxLengthDifference : Nat := 2

def areLengthsClose (a b : Text) : Bool :=
  a.length ≤ b.length + maxLengthDifference && b.length ≤ a.length + maxLengthDifference

def candidates (index : ProgramIndex) (name : Text) : List Candidate :=
  (index.entries.filter fun entry => areLengthsClose entry.1 name).map (Candidate.ofEntry name)

def closest? (index : ProgramIndex) (name : Text) (maxDistance : Nat) : Option Candidate :=
  Candidate.nearest? (index.candidates name) maxDistance

structure Survey where
  index : ProgramIndex
  listed : Nat
  skipped : List (Path × OsError)

def insertDirectory (files : FileSystem) (directory : Path) (index : ProgramIndex)
    (names : List Name) : ProgramIndex :=
  names.foldl
    (fun index name =>
      let path := directory.join name
      -- A name that is not UTF-8 is no name of a program.
      match files.isExecutable path, Utf8.decode? name with
      | true, some text => index.insert text ((files.canonical path).toOption.getD path)
      | _, _ => index)
    index

def survey (files : FileSystem) (directories : List Path) : Survey :=
  directories.foldl
    (fun found directory =>
      match files.list directory with
      | .ok names =>
        { found with
          index := insertDirectory files directory found.index names
          listed := found.listed + 1 }
      | .error error => { found with skipped := found.skipped ++ [(directory, error)] })
    ⟨empty, 0, []⟩

def searchDirectories (searchPath : Text) : List Path :=
  ((go searchPath).filter (¬ ·.isEmpty)).map Path.ofText
where
  go : Text → List Text
    | [] => [[]]
    | c :: cs =>
      match go cs with
      | piece :: rest => if c = ':' then [] :: piece :: rest else (c :: piece) :: rest
      | [] => [[c]]

def ofSearchPath (files : FileSystem) (searchPath : Text) : ProgramIndex :=
  (survey files (searchDirectories searchPath)).index

end ProgramIndex

end Preflight
