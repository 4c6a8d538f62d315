import Preflight.Proofs.PathCorrection
import Preflight.Proofs.Plan
import Preflight.Proofs.Resolution
import Preflight.Proofs.Text.Utf8
import Preflight.Proofs.Word

/-!
This module contains what becomes of a command that is a local path, from the check of the file to
the plan.
-/

namespace Preflight

namespace Path

def retyped (path : Path) : Path := ofText (Word.unescape (display path))

theorem retyped_nil : retyped [] = [] := by
  unfold retyped display Utf8.decodeLossy
  rw [Utf8.pieces]
  rfl

theorem ofText_append_cons (s t : Text) :
    ofText (s ++ '/' :: t) = ofText s ++ slash :: ofText t := by
  unfold ofText
  rw [Utf8.encode_append]
  rfl

theorem retyped_append_cons (front back : Path) :
    retyped (front ++ slash :: back) = retyped front ++ slash :: retyped back := by
  unfold retyped display
  rw [Utf8.decodeLossy_append_cons (by decide)]
  have hslash : Char.ofNat slash.toNat = '/' := rfl
  rw [hslash, Word.unescape_append_cons (by decide), ofText_append_cons]

theorem slash_not_mem_retyped {path : Path} (h : slash ∉ path) : slash ∉ retyped path := by
  intro hmem
  have htext := Utf8.mem_of_mem_encode hmem (by decide)
  have hshown := Word.mem_of_mem_unescape htext
  exact h (Utf8.mem_of_mem_decodeLossy hshown (by decide) (by decide))

theorem retyped_eq_self_iff {path : Path} :
    retyped path = path ↔ ∃ t, '\\' ∉ t ∧ path = ofText t := by
  unfold retyped display ofText
  constructor
  · intro h
    refine ⟨Word.unescape (Utf8.decodeLossy path), ?_, h.symm⟩
    rw [← Word.unescape_eq_self_iff]
    have hshown := congrArg Utf8.decodeLossy h
    rw [Utf8.decodeLossy_encode] at hshown
    rw [hshown, hshown]
  · rintro ⟨t, ht, rfl⟩
    rw [Utf8.decodeLossy_encode, Word.unescape_eq_self_of_not_mem ht]

end Path

namespace Resolver

def pathQuestion (typed : Text) (path : Path) : Text :=
  "executable path '".toList ++ typed ++ "' not found, do you mean '".toList
    ++ (['.', '/'] ++ path.display) ++ "'?".toList

/--
The path whose file is checked for a local command: what the command stands for if there is
something, else the path that is suggested, if there is consent to that.
-/
inductive Checks (resolver : Resolver) (consents : Text → Prop) (typed : Text) : Path → Prop where
  | existing
    (h : resolver.files.pathExists (resolver.base.join (Resolution.relativePath typed)) = true) :
    Checks resolver consents typed (Resolution.relativePath typed)
  | accepted {path : Path}
    (hmissing :
      resolver.files.pathExists (resolver.base.join (Resolution.relativePath typed)) = false)
    (hsuggested : resolver.suggestPath? (Resolution.relativePath typed) = some path)
    (hyes : consents (pathQuestion typed path)) :
    Checks resolver consents typed path

end Resolver

namespace Resolution

variable {resolver : Resolver} {command : Entry}

theorem ofPath_eq_found (h : ofPath resolver command = .found) :
    resolver.files.pathExists (resolver.base.join (relativePath command.text)) = true ∧
      obstacle? resolver.files (resolver.base.join (relativePath command.text)) = none := by
  unfold ofPath at h
  dsimp only at h
  split at h
  · next hexists =>
    split at h
    · contradiction
    · next hobstacle => exact ⟨hexists, hobstacle⟩
  · split at h <;> contradiction

theorem exists_of_ofPath_eq_asks {question replacement : Text} {obstacle : Option Failure}
    {declined : Failure}
    (h : ofPath resolver command = .asks question replacement obstacle declined) :
    resolver.files.pathExists (resolver.base.join (relativePath command.text)) = false ∧
      ∃ path, resolver.suggestPath? (relativePath command.text) = some path ∧
        question = Resolver.pathQuestion command.text path ∧
        replacement = ['.', '/'] ++ path.display ∧
        obstacle = (obstacle? resolver.files (resolver.base.join path)).map (failure command) := by
  unfold ofPath at h
  dsimp only at h
  split at h
  · split at h <;> contradiction
  · next hmissing =>
    split at h
    · contradiction
    · next path hsuggested =>
      injection h with hquestion hreplacement hobstacle
      exact ⟨Bool.eq_false_iff.2 hmissing, path, hsuggested, hquestion.symm, hreplacement.symm,
        hobstacle.symm⟩

theorem ofPath_eq_asks {question replacement : Text} {declined : Failure}
    (h : ofPath resolver command = .asks question replacement none declined) :
    resolver.files.pathExists (resolver.base.join (relativePath command.text)) = false ∧
      ∃ path, resolver.suggestPath? (relativePath command.text) = some path ∧
        question = Resolver.pathQuestion command.text path ∧
        replacement = ['.', '/'] ++ path.display ∧
        obstacle? resolver.files (resolver.base.join path) = none := by
  obtain ⟨hmissing, path, hsuggested, hquestion, hreplacement, hobstacle⟩ :=
    exists_of_ofPath_eq_asks h
  exact ⟨hmissing, path, hsuggested, hquestion, hreplacement,
    Option.map_eq_none_iff.1 hobstacle.symm⟩

theorem exists_stat_of_obstacle?_eq_none {files : FileSystem} {path : Path}
    (hproper : files.HasProperNames) (h : obstacle? files path = none) :
    ∃ content, files.stat path = .ok (.file true content) := by
  unfold obstacle? at h
  dsimp only at h
  split at h
  · contradiction
  · next hfile =>
    split at h
    · contradiction
    · next hexecutable =>
      rw [Bool.not_eq_true, Bool.not_eq_false'] at hfile hexecutable
      obtain ⟨executable, content, hcontent⟩ := FileSystem.exists_stat_of_isFile hfile
      have hpermission := FileSystem.isExecutable_of_stat hcontent
      rw [hexecutable] at hpermission
      subst hpermission
      refine ⟨content, ?_⟩
      cases hcanonical : files.canonical path with
      | error error =>
        rw [hcanonical] at hcontent
        exact hcontent
      | ok real =>
        rw [hcanonical] at hcontent
        exact FileSystem.stat_of_stat_canonical hproper hcanonical hcontent

end Resolution

namespace Plan

structure Launches (resolver : Resolver) (plan : Plan) (checked : Path) : Prop where
  same : Path.SameAs (resolver.base.join plan.path) (resolver.base.join checked)
  isFile : resolver.files.isFile (resolver.base.join plan.path) = true
  isExecutable : resolver.files.isExecutable (resolver.base.join plan.path) = true

variable {resolver : Resolver} {plan : Plan} {checked : Path}

theorem Launches.length_le (h : plan.Launches resolver checked) :
    (resolver.base.join plan.path).length ≤ FileSystem.maxPathLength := by
  obtain ⟨executable, content, hstat⟩ := FileSystem.exists_stat_of_isFile h.isFile
  obtain ⟨place, hplace, _⟩ := FileSystem.stat_eq_ok_iff.1 hstat
  exact (FileSystem.locate_eq_ok hplace).2.1

theorem launches_iff_of_path_eq {content : Content} (hpath : plan.path = Path.here checked)
    (hstat : resolver.files.stat (resolver.base.join checked) = .ok (.file true content)) :
    plan.Launches resolver checked ↔
      (checked.isAbsolute = true → resolver.base.isAbsolute = true ∧ resolver.base.moves = []) ∧
        (resolver.base.join plan.path).length ≤ FileSystem.maxPathLength := by
  constructor
  · intro h
    have hsame := h.same
    rw [hpath] at hsame
    exact ⟨(Path.sameAs_join_here_iff _ _).1 hsame, h.length_le⟩
  · rintro ⟨hbase, hlength⟩
    rw [hpath] at hlength
    obtain ⟨place, hplace, hnode⟩ := FileSystem.stat_eq_ok_iff.1 hstat
    have hhere := FileSystem.locate_join_here hbase hlength hplace
    have hplanned : resolver.files.stat (resolver.base.join plan.path) =
        .ok (.file true content) := by
      rw [hpath]
      exact FileSystem.stat_eq_ok_iff.2 ⟨place, hhere, hnode⟩
    constructor
    · rw [hpath]
      exact (Path.sameAs_join_here_iff _ _).2 hbase
    · exact FileSystem.isFile_of_stat hplanned
    · exact FileSystem.isExecutable_of_stat hplanned

theorem retyped_eq_self_of_same (hproper : resolver.files.HasProperNames) {relative : Path}
    (hsuggested : resolver.suggestPath? relative = some checked)
    (h : Path.SameAs (resolver.base.join (Path.here (Path.retyped checked)))
      (resolver.base.join checked)) : Path.retyped checked = checked := by
  have hhere : Path.isAbsolute (Path.here (Path.retyped checked)) = false := rfl
  unfold Path.SameAs at h
  rw [Path.isAbsolute_join hhere, Path.moves_join hhere, Path.moves_here] at h
  unfold Resolver.suggestPath? closestPath? at hsuggested
  cases hcorrect : PathCorrection.correct resolver.files resolver.base relative with
  | error failure =>
    rw [hcorrect] at hsuggested
    contradiction
  | ok found =>
    rw [hcorrect] at hsuggested
    injection hsuggested with hfound
    subst hfound
    obtain ⟨moves, hmoves, rfl | ⟨rfl, hbelow⟩⟩ :=
      PathCorrection.exists_moves_of_correct hproper hcorrect
    · rw [Path.moves_join (Path.isAbsolute_ofMoves hmoves), Path.moves_ofMoves hmoves] at h
      apply Path.eq_of_moves_eq Path.retyped_append_cons
      · intro a
        exact Path.slash_not_mem_retyped
      · exact Path.retyped_nil
      · exact hmoves
      · exact List.append_cancel_left h.2
    · -- An absolute suggestion is planned below the base, where it does not lie.
      have habsolute : Path.isAbsolute (Path.slash :: Path.ofMoves moves) = true := rfl
      have hsuggestion := Path.moves_append_cons [] (Path.ofMoves moves)
      rw [Path.moves_ofMoves hmoves] at hsuggestion
      rw [Path.join_of_isAbsolute habsolute] at h
      exact absurd ⟨h.1, ⟨_, h.2.trans hsuggestion⟩⟩ hbelow

end Plan

section plan

variable {σ : Type} {resolver : Resolver}
  {confirm : Text → List Char → StateM σ (Except ReadError Char)} {s : σ} {tokens : List Token}
  {tree : Tree} {typed : Text} {source : Location}

/--
A successful search by a path leads to a plan. What is planned is the file that was checked, unless
- its path is absolute: it is planned below the base, and that is only the same at the root,
- its path was suggested and is not well-formed text, or there is a backslash in it: it takes the
  place of the command as it is shown, but the plan takes it for a word,
- its path gets too long by the `./` in front of it.
-/
theorem plan_of_resolve_path (h : .command typed source ∈ clauses tokens)
    (hlocal : Word.isLocal typed = true) (hproper : resolver.files.HasProperNames)
    (hok : (resolve resolver confirm (parse tokens) s).1 = .ok tree) :
    ∃ plan checked, Plan.ofTree tree resolver.index = .ok plan ∧
      resolver.Checks (Consents confirm s) typed checked ∧
      Resolution.obstacle? resolver.files (resolver.base.join checked) = none ∧
      (plan.Launches resolver checked ↔
        ((checked.isAbsolute = true → resolver.base.isAbsolute = true ∧ resolver.base.moves = []) ∧
          (resolver.base.join plan.path).length ≤ FileSystem.maxPathLength) ∧
        (resolver.files.pathExists (resolver.base.join (Resolution.relativePath typed)) = true ∨
          ∃ t, '\\' ∉ t ∧ checked = Path.ofText t)) := by
  obtain ⟨before, after, text, corrected, hrepresents, hbefore, hafter, hcases⟩ :=
    exists_represents_of_resolve h hok
  rw [Resolution.ofCommand_of_isLocal hlocal] at hcases
  have hunescape : ∀ rest, Path.ofText (Word.unescape ('.' :: '/' :: rest)) =
      Path.here (Path.ofText (Word.unescape rest)) := by
    intro rest
    rw [Word.unescape_cons (by decide), Word.unescape_cons (by decide)]
    exact Path.ofText_append_cons ['.'] _
  rcases hcases with ⟨hfound, rfl⟩ | ⟨question, declined, hasks, hyes⟩
  · obtain ⟨hexists, hobstacle⟩ := Resolution.ofPath_eq_found hfound
    obtain ⟨content, hstat⟩ := Resolution.exists_stat_of_obstacle?_eq_none hproper hobstacle
    have hplan := Plan.ofTree_of_isLocal hrepresents hbefore hafter hlocal resolver.index
    refine ⟨_, _, hplan, .existing hexists, hobstacle, ?_⟩
    have hpath : Path.ofText (Word.unescape text) =
        Path.here (Resolution.relativePath text) := by
      unfold Word.isLocal at hlocal
      split at hlocal
      · exact hunescape _
      · contradiction
    rw [Plan.launches_iff_of_path_eq hpath hstat]
    simp [hexists]
  · obtain ⟨hmissing, checked, hsuggested, rfl, rfl, hobstacle⟩ := Resolution.ofPath_eq_asks hasks
    obtain ⟨content, hstat⟩ := Resolution.exists_stat_of_obstacle?_eq_none hproper hobstacle
    have hplan := Plan.ofTree_of_isLocal hrepresents hbefore hafter rfl resolver.index
    refine ⟨_, checked, hplan, .accepted hmissing hsuggested hyes, hobstacle, ?_⟩
    have hpath : Path.ofText (Word.unescape (['.', '/'] ++ checked.display)) =
        Path.here checked.retyped := hunescape _
    rw [hmissing, ← Path.retyped_eq_self_iff]
    constructor
    · intro hlaunches
      have hsame := hlaunches.same
      dsimp only at hsame
      rw [hpath] at hsame
      have hretyped := Plan.retyped_eq_self_of_same hproper hsuggested hsame
      rw [hretyped] at hpath
      exact ⟨(Plan.launches_iff_of_path_eq hpath hstat).1 hlaunches, .inr hretyped⟩
    · rintro ⟨hcondition, hretyped⟩
      have hretyped := hretyped.resolve_left Bool.false_ne_true
      rw [hretyped] at hpath
      exact (Plan.launches_iff_of_path_eq hpath hstat).2 hcondition

end plan

namespace Resolver

def nextToProgram : Resolver :=
  ⟨.empty, [0x2F, 0x62], 2,
    ⟨[([0x78], .file true (.data [])), ([0x62], .directory [])], some []⟩⟩

theorem hasProperNames_nextToProgram : nextToProgram.files.HasProperNames := by
  intro place entries hplace entry hentry
  unfold FileSystem.node? nextToProgram at hplace
  cases place with
  | nil =>
    cases hplace
    simp only [List.mem_cons, List.not_mem_nil, or_false] at hentry
    rcases hentry with rfl | rfl <;> decide
  | cons name names =>
    rw [FileNode.find?_directory_cons] at hplace
    rw [List.lookup_cons, List.lookup_cons, List.lookup_nil] at hplace
    -- There is a file, with nothing below it, and an empty directory.
    split at hplace
    · cases names <;> cases hplace
    · split at hplace
      · cases names with
        | nil =>
          cases hplace
          contradiction
        | cons name names => cases hplace
      · cases hplace

theorem locate_program : nextToProgram.files.locate [0x2F, 0x78] = .ok [[0x78]] := by
  apply FileSystem.locate_of_follow
  · decide
  · decide
  · rfl
  · have hsteps : Path.steps [0x2F, 0x78] = [.child [0x78]] := rfl
    rw [hsteps, FileSystem.follow_child rfl]
    exact FileSystem.follow_nil FileSystem.maxLinks [[0x78]]

theorem stat_program : nextToProgram.files.stat [0x2F, 0x78] = .ok (.file true (.data [])) :=
  FileSystem.stat_eq_ok_iff.2 ⟨_, locate_program, rfl⟩

theorem obstacle?_program : Resolution.obstacle? nextToProgram.files [0x2F, 0x78] = none := by
  have hcanonical : nextToProgram.files.canonical [0x2F, 0x78] = .ok [0x2F, 0x78] := by
    unfold FileSystem.canonical
    rw [locate_program]
    rfl
  have hfile := FileSystem.isFile_of_stat stat_program
  have hexecutable := FileSystem.isExecutable_of_stat stat_program
  unfold Resolution.obstacle?
  simp [hcanonical, Except.toOption, hfile, hexecutable]

theorem locate_below :
    nextToProgram.files.locate [0x2F, 0x62, 0x2F, 0x2E, 0x2F, 0x2F, 0x78] = .error .missing := by
  have hsteps : Path.steps [0x2F, 0x62, 0x2F, 0x2E, 0x2F, 0x2F, 0x78] =
      [.child [0x62], .stay, .child [0x78]] := rfl
  have hbelow : nextToProgram.files.follow FileSystem.maxLinks [[0x62]] [.stay, .child [0x78]] =
      .error .missing := by
    rw [FileSystem.follow_stay rfl, FileSystem.follow_child rfl]
    rfl
  unfold FileSystem.locate
  rw [hsteps, FileSystem.follow_child rfl]
  exact hbelow

end Resolver

def twoSlashes : List Token := [⟨.word, ['.', '/', '/', 'x'], .start⟩]

theorem resolve_twoSlashes :
    (resolve (m := StateM Unit) Resolver.nextToProgram (fun _ _ => pure (.error .ended))
      (parse twoSlashes) ()).1 = .ok (parse twoSlashes) := by
  have hfound : Resolution.ofCommand Resolver.nextToProgram
      ⟨.command, ['.', '/', '/', 'x'], .start, false⟩ = .found := by
    have hexists : Resolver.nextToProgram.files.pathExists [0x2F, 0x78] = true := by
      unfold FileSystem.pathExists
      rw [Resolver.stat_program]
      rfl
    have hfull : Resolver.nextToProgram.base.join
        (Resolution.relativePath ['.', '/', '/', 'x']) = [0x2F, 0x78] := rfl
    unfold Resolution.ofCommand Resolution.ofPath
    simp only [hfull, hexists, Resolver.obstacle?_program]
    rfl
  have hid : (parse twoSlashes).command? = some 1 := rfl
  rw [resolve_of_found hid rfl hfound]
  rfl

theorem plan_of_resolve_twoSlashes :
    ∃ plan checked,
      Word.isLocal ['.', '/', '/', 'x'] = true ∧ Resolver.nextToProgram.files.HasProperNames ∧
      Plan.ofTree (parse twoSlashes) Resolver.nextToProgram.index = .ok plan ∧
      Resolver.nextToProgram.Checks
        (Consents (σ := Unit) (fun _ _ => pure (.error .ended)) ()) ['.', '/', '/', 'x'] checked ∧
      Resolution.obstacle? Resolver.nextToProgram.files
        (Resolver.nextToProgram.base.join checked) = none ∧
      (plan.Launches Resolver.nextToProgram checked ↔
        ((checked.isAbsolute = true → Resolver.nextToProgram.base.isAbsolute = true ∧
            Resolver.nextToProgram.base.moves = []) ∧
          (Resolver.nextToProgram.base.join plan.path).length ≤ FileSystem.maxPathLength) ∧
        (Resolver.nextToProgram.files.pathExists (Resolver.nextToProgram.base.join
            (Resolution.relativePath ['.', '/', '/', 'x'])) = true ∨
          ∃ t, '\\' ∉ t ∧ checked = Path.ofText t)) := by
  have hmem : .command ['.', '/', '/', 'x'] .start ∈ clauses twoSlashes := by decide
  obtain ⟨plan, checked, h⟩ := plan_of_resolve_path hmem rfl
    Resolver.hasProperNames_nextToProgram resolve_twoSlashes
  exact ⟨plan, checked, rfl, Resolver.hasProperNames_nextToProgram, h⟩

theorem plan_of_absolute_path :
    (resolve (m := StateM Unit) Resolver.nextToProgram (fun _ _ => pure (.error .ended))
        (parse twoSlashes) ()).1 = .ok (parse twoSlashes) ∧
      Resolver.nextToProgram.base.join (Resolution.relativePath ['.', '/', '/', 'x']) =
        [0x2F, 0x78] ∧
      Resolution.obstacle? Resolver.nextToProgram.files [0x2F, 0x78] = none ∧
      ∃ plan, Plan.ofTree (parse twoSlashes) Resolver.nextToProgram.index = .ok plan ∧
        Resolver.nextToProgram.base.join plan.path =
          [0x2F, 0x62, 0x2F, 0x2E, 0x2F, 0x2F, 0x78] ∧
        Resolver.nextToProgram.files.pathExists (Resolver.nextToProgram.base.join plan.path) =
          false := by
  refine ⟨resolve_twoSlashes, rfl, Resolver.obstacle?_program, ?_⟩
  refine ⟨⟨[0x2E, 0x2F, 0x2F, 0x78], [['.', '/', '/', 'x']], []⟩, rfl, rfl, ?_⟩
  have hjoin : Resolver.nextToProgram.base.join [0x2E, 0x2F, 0x2F, 0x78] =
      [0x2F, 0x62, 0x2F, 0x2E, 0x2F, 0x2F, 0x78] := rfl
  unfold FileSystem.pathExists FileSystem.stat
  dsimp only
  rw [hjoin, Resolver.locate_below]
  rfl

end Preflight
