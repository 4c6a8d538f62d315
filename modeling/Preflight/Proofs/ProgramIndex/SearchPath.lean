import Preflight.Proofs.Files.Reordered
import Preflight.Proofs.ProgramIndex.Nearest
import Preflight.Proofs.Text.Utf8.Decode

/-!
This module contains what a search path means: a name leads to the program in the first of the
directories that provide one.
-/

namespace Preflight

theorem lookup_eq_some_iff_mem {α β : Type} [BEq α] [LawfulBEq α] {entries : List (α × β)}
    {f : α → β} (h : ∀ entry ∈ entries, entry.2 = f entry.1) {key : α} {value : β} :
    entries.lookup key = some value ↔ (key, value) ∈ entries := by
  constructor
  · exact mem_of_lookup_eq_some
  · intro hmem
    cases hlookup : entries.lookup key with
    | none =>
      rw [List.lookup_eq_none_iff] at hlookup
      simpa using hlookup _ hmem
    | some first =>
      have hfirst : first = f key := h _ (mem_of_lookup_eq_some hlookup)
      have hvalue : value = f key := h _ hmem
      rw [hfirst, hvalue]

namespace ProgramIndex

section programsIn

variable {files : FileSystem} {directory path : Path} {name : Text}

def program? (files : FileSystem) (directory : Path) (name : Name) : Option (Text × Path) :=
  match files.isExecutable (directory.join name), Utf8.decode? name with
  | true, some text =>
    some (text, (files.canonical (directory.join name)).toOption.getD (directory.join name))
  | _, _ => none

def programsIn (files : FileSystem) (directory : Path) : List (Text × Path) :=
  match files.list directory with
  | .ok names => names.filterMap (program? files directory)
  | .error _ => []

theorem insertDirectory_eq (index : ProgramIndex) (names : List Name) :
    insertDirectory files directory index names =
      (names.filterMap (program? files directory)).foldl
        (fun index (name, path) => index.insert name path) index := by
  unfold insertDirectory
  induction names generalizing index with
  | nil => rfl
  | cons name names ih =>
    rw [List.foldl_cons, ih, List.filterMap_cons]
    unfold program?
    dsimp only
    generalize files.isExecutable (directory.join name) = executable, Utf8.decode? name = text
    cases executable <;> cases text <;> rfl

theorem ofSearchPath_eq_ofList (files : FileSystem) (searchPath : Text) :
    ofSearchPath files searchPath =
      ofList ((searchDirectories searchPath).flatMap (programsIn files)) := by
  unfold ofSearchPath survey ofList
  rw [List.foldl_flatMap]
  apply Eq.symm
  refine @List.foldl_hom _ _ _ Survey.index _ _ _ ⟨empty, 0, []⟩ ?_
  intro found directory
  unfold programsIn
  cases files.list directory with
  | ok names => exact (insertDirectory_eq found.index names).symm
  | error error => rfl

theorem program?_eq_some_iff {entry : Name} :
    program? files directory entry = some (name, path) ↔
      entry = Utf8.encode name ∧ files.isExecutable (directory.join entry) = true ∧
        path = (files.canonical (directory.join entry)).toOption.getD (directory.join entry) := by
  rw [← Utf8.decode?_eq_some_iff]
  unfold program?
  cases files.isExecutable (directory.join entry) with
  | false => simp
  | true =>
    cases Utf8.decode? entry with
    | none => simp
    | some text => simp [eq_comm]

def HasProgram (files : FileSystem) (directory : Path) (name : Text) : Prop :=
  (∃ names, files.list directory = .ok names ∧ Utf8.encode name ∈ names) ∧
    ∃ content, files.stat (directory.join (Utf8.encode name)) = .ok (.file true content)

theorem mem_programsIn_iff :
    (name, path) ∈ programsIn files directory ↔
      HasProgram files directory name ∧
        files.canonical (directory.join (Utf8.encode name)) = .ok path := by
  have hmem : (name, path) ∈ programsIn files directory ↔
      ∃ names, files.list directory = .ok names ∧
        ∃ entry ∈ names, program? files directory entry = some (name, path) := by
    unfold programsIn
    cases files.list directory with
    | ok names => simp
    | error error => simp
  rw [hmem]
  constructor
  · rintro ⟨names, hlist, entry, hentry, hprogram⟩
    obtain ⟨rfl, hexecutable, rfl⟩ := program?_eq_some_iff.1 hprogram
    obtain ⟨content, hstat⟩ := FileSystem.isExecutable_iff.1 hexecutable
    obtain ⟨target, htarget⟩ := FileSystem.exists_canonical_of_stat hstat
    refine ⟨⟨⟨names, hlist, hentry⟩, content, hstat⟩, ?_⟩
    rw [htarget]
    rfl
  · rintro ⟨⟨⟨names, hlist, hentry⟩, content, hstat⟩, hcanonical⟩
    refine ⟨names, hlist, _, hentry, program?_eq_some_iff.2 ⟨rfl, ?_, ?_⟩⟩
    · exact FileSystem.isExecutable_iff.2 ⟨content, hstat⟩
    · rw [hcanonical]
      rfl

theorem lookup_programsIn_eq_some_iff :
    (programsIn files directory).lookup name = some path ↔
      HasProgram files directory name ∧
        files.canonical (directory.join (Utf8.encode name)) = .ok path := by
  rw [← mem_programsIn_iff]
  apply @lookup_eq_some_iff_mem _ _ _ _ _ fun name =>
    (files.canonical (directory.join (Utf8.encode name))).toOption.getD []
  rintro ⟨other, target⟩ hmem
  dsimp only
  rw [(mem_programsIn_iff.1 hmem).2]
  rfl

theorem lookup_programsIn_eq_none_iff :
    (programsIn files directory).lookup name = none ↔ ¬HasProgram files directory name := by
  rw [Option.eq_none_iff_forall_ne_some]
  constructor
  · rintro hnone ⟨hlisted, content, hstat⟩
    obtain ⟨target, htarget⟩ := FileSystem.exists_canonical_of_stat hstat
    exact hnone target (lookup_programsIn_eq_some_iff.2 ⟨⟨hlisted, content, hstat⟩, htarget⟩)
  · intro hnot path hpath
    exact hnot (lookup_programsIn_eq_some_iff.1 hpath).1

theorem hasProgram_iff_of_reordered {files' : FileSystem} (h : files.Reordered files') :
    HasProgram files' directory name ↔ HasProgram files directory name := by
  have hle : ∀ {files files' : FileSystem}, files.Reordered files' →
      HasProgram files directory name → HasProgram files' directory name := by
    rintro files files' h ⟨⟨names, hlist, hmem⟩, content, hstat⟩
    obtain ⟨names', hlist', hperm⟩ := h.exists_list hlist
    exact ⟨⟨names', hlist', hperm.mem_iff.1 hmem⟩, content, h.stat_file_iff.2 hstat⟩
  exact ⟨hle h.symm, hle h⟩

end programsIn

section searchPath

variable {files : FileSystem} {searchPath directory name : Text} {path : Path}

theorem searchDirectories_go_eq (searchPath : Text) :
    searchDirectories.go searchPath = searchPath.splitOn ':' := by
  induction searchPath with
  | nil => rfl
  | cons c searchPath ih =>
    rw [searchDirectories.go, ih, List.splitOn_cons_eq_if_modifyHead]
    obtain ⟨piece, pieces, hpieces⟩ :=
      List.exists_cons_of_ne_nil (List.splitOnP_ne_nil (· == ':') searchPath)
    rw [List.splitOn_eq_splitOnP, hpieces]
    simp only [beq_iff_eq]
    rfl

def Provides (files : FileSystem) (directory name : Text) : Prop :=
  directory ≠ [] ∧ HasProgram files (Path.ofText directory) name

def provided? (files : FileSystem) (name directory : Text) : Option Path :=
  if directory = [] then none else (programsIn files (Path.ofText directory)).lookup name

theorem provided?_eq_some_iff :
    provided? files name directory = some path ↔
      Provides files directory name ∧
        files.canonical ((Path.ofText directory).join (Utf8.encode name)) = .ok path := by
  unfold provided? Provides
  split
  · next hnil => simp [hnil]
  · next hne => rw [lookup_programsIn_eq_some_iff, and_assoc, and_iff_right hne]

theorem provided?_eq_none_iff :
    provided? files name directory = none ↔ ¬Provides files directory name := by
  unfold provided? Provides
  split
  · next hnil => simp [hnil]
  · next hne => rw [lookup_programsIn_eq_none_iff, and_iff_right hne]

theorem lookup_flatMap_searchDirectories (directories : List Text) :
    (((directories.filter (¬ ·.isEmpty)).map Path.ofText).flatMap (programsIn files)).lookup name =
      directories.findSome? (provided? files name) := by
  induction directories with
  | nil => rfl
  | cons directory directories ih =>
    rw [List.findSome?_cons, ← ih]
    unfold provided?
    cases directory with
    | nil => rfl
    | cons c directory =>
      rw [List.filter_cons_of_pos (by simp), List.map_cons, List.flatMap_cons, List.lookup_append,
        if_neg (by simp)]
      cases (programsIn files (Path.ofText (c :: directory))).lookup name <;> rfl

theorem get?_ofSearchPath (files : FileSystem) (searchPath name : Text) :
    (ofSearchPath files searchPath).get? name =
      (searchPath.splitOn ':').findSome? (provided? files name) := by
  rw [ofSearchPath_eq_ofList, get?_ofList]
  unfold searchDirectories
  rw [searchDirectories_go_eq, lookup_flatMap_searchDirectories]

theorem get?_ofSearchPath_of_reordered {files' : FileSystem} (h : files.Reordered files') :
    (ofSearchPath files' searchPath).get? name = (ofSearchPath files searchPath).get? name := by
  have hprovided : provided? files' name = provided? files name := by
    funext directory
    apply Option.ext
    intro path
    rw [provided?_eq_some_iff, provided?_eq_some_iff, h.canonical_eq]
    unfold Provides
    rw [hasProgram_iff_of_reordered h]
  rw [get?_ofSearchPath, get?_ofSearchPath, hprovided]

theorem isFirst_ofSearchPath (files : FileSystem) (searchPath : Text) :
    (∀ name path, (ofSearchPath files searchPath).get? name = some path ↔
      ∃ before directory after, searchPath.splitOn ':' = before ++ directory :: after ∧
        (∀ earlier ∈ before, ¬Provides files earlier name) ∧ Provides files directory name ∧
        files.canonical ((Path.ofText directory).join (Utf8.encode name)) = .ok path) ∧
    (∀ name, (ofSearchPath files searchPath).contains name = true ↔
      ∃ directory ∈ searchPath.splitOn ':', Provides files directory name) ∧
    (∀ name path, (name, path) ∈ (ofSearchPath files searchPath).entries ↔
      (ofSearchPath files searchPath).get? name = some path) ∧
    (∀ files', files.Reordered files' → ∀ name,
      (ofSearchPath files' searchPath).get? name = (ofSearchPath files searchPath).get? name) ∧
    (∀ rest name, (ofSearchPath files (searchPath ++ ':' :: rest)).get? name =
      ((ofSearchPath files searchPath).get? name).or ((ofSearchPath files rest).get? name)) := by
  refine ⟨?_, ?_, ?_, fun files' h name => get?_ofSearchPath_of_reordered h, ?_⟩
  · intro name path
    rw [get?_ofSearchPath, List.findSome?_eq_some_iff]
    simp only [provided?_eq_some_iff, provided?_eq_none_iff]
    constructor
    · rintro ⟨before, directory, after, hsplit, ⟨hprovides, hpath⟩, hbefore⟩
      exact ⟨before, directory, after, hsplit, hbefore, hprovides, hpath⟩
    · rintro ⟨before, directory, after, hsplit, hbefore, hprovides, hpath⟩
      exact ⟨before, directory, after, hsplit, ⟨hprovides, hpath⟩, hbefore⟩
  · intro name
    unfold contains
    rw [get?_ofSearchPath, List.findSome?_isSome_iff]
    simp only [Option.isSome_iff_ne_none, ne_eq, provided?_eq_none_iff, not_not]
  · intro name path
    rw [ofSearchPath_eq_ofList, get?_ofList]
    exact mem_entries_ofList
  · intro rest name
    have hsplit : (searchPath ++ ':' :: rest).splitOn ':' =
        searchPath.splitOn ':' ++ rest.splitOn ':' :=
      List.splitOnP_append_cons searchPath rest rfl
    rw [get?_ofSearchPath, get?_ofSearchPath, get?_ofSearchPath, hsplit, List.findSome?_append]

def shadowing : FileSystem :=
  ⟨[([0x61], .directory [([0x78], .file false (.data []))]),
    ([0x62], .directory [([0x78], .file true (.data []))])], some []⟩

theorem isFirst_ofSearchPath_shadowing :
    let relisted : FileSystem := ⟨shadowing.root.reverse, some []⟩
    shadowing.Reordered relisted ∧
      (ofSearchPath relisted ['/', 'a', ':', '/', 'b']).get? ['x'] =
        some [0x2F, 0x62, 0x2F, 0x78] := by
  intro relisted
  have hreordered : shadowing.Reordered relisted :=
    ⟨.of_perm (List.reverse_perm _).symm (by decide), rfl⟩
  have hfile : shadowing.stat [0x2F, 0x61, 0x2F, 0x78] = .ok (.file false (.data [])) :=
    @FileSystem.stat_of_node? _ _ [[0x61], [0x78]] _ (by simp) (by decide) rfl rfl (by decide) rfl
      (by simp)
  have hdirectory : shadowing.stat [0x2F, 0x62] = .ok (.directory _) :=
    @FileSystem.stat_of_node? _ _ [[0x62]] _ (by simp) (by decide) rfl rfl (by decide) rfl (by simp)
  have hprogram : shadowing.locate [0x2F, 0x62, 0x2F, 0x78] = .ok [[0x62], [0x78]] :=
    FileSystem.locate_of_settled (by simp) (by decide) rfl rfl ⟨_, rfl, by simp⟩ (by decide)
  have hjoin : (Path.ofText ['/', 'b']).join (Utf8.encode ['x']) = [0x2F, 0x62, 0x2F, 0x78] := rfl
  obtain ⟨hget, _, _, horder, _⟩ := isFirst_ofSearchPath shadowing ['/', 'a', ':', '/', 'b']
  refine ⟨hreordered, (horder _ hreordered _).trans ((hget _ _).2 ?_)⟩
  refine ⟨[['/', 'a']], ['/', 'b'], [], rfl, ?_, ⟨by simp, ⟨[[0x78]], ?_, ?_⟩, .data [], ?_⟩, ?_⟩
  · rw [List.forall_mem_singleton]
    rintro ⟨_, _, content, hstat⟩
    exact absurd (hfile.symm.trans hstat) (by simp)
  · exact FileSystem.list_eq_ok_iff.2 ⟨_, hdirectory, rfl⟩
  · decide
  · exact FileSystem.stat_eq_ok_iff.2 ⟨_, hprogram, rfl⟩
  · unfold FileSystem.canonical
    rw [hjoin, hprogram]
    rfl

end searchPath

end ProgramIndex

end Preflight
