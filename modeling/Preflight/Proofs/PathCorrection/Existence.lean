import Preflight.Proofs.Files.Follow
import Preflight.Proofs.PathCorrection.Walk

/-!
This module contains when the correction of a path leads to something that exists: its last name may
be a link that leads nowhere, and nothing makes sure that it is a directory if moves to a parent
follow it.
-/

namespace Preflight

namespace PathCorrection

variable {files : FileSystem}

theorem exists_lookup_of_closestChild? {directory : Path} {typed name : Name} {distance : Nat}
    (h : closestChild? files directory typed = some (distance, name)) :
    ∃ entries entry, files.stat directory = .ok (.directory entries) ∧
      entries.lookup name = some entry := by
  unfold closestChild? at h
  split at h
  · next names hlist =>
    have hname := @closestOf_induction (fun found => found.2 ∈ names) _ _ _ _ (by simp)
      (fun _ => id) h
    obtain ⟨entries, hstat, rfl⟩ := FileSystem.list_eq_ok_iff.1 hlist
    obtain ⟨entry, hentry⟩ := Option.isSome_iff_exists.1 (FileNode.lookup_isSome_iff.2 hname)
    exact ⟨entries, entry, hstat, hentry⟩
  · contradiction

section correctFrom

variable {start : Path} {threshold : Nat} {done moves result : List Step}

theorem eq_replicate_of_correctFrom (hmoves : ∀ move ∈ moves, move.IsMove)
    (hany : moves.any Step.isChild = false)
    (h : correctFrom files start threshold done moves = .ok result) :
    result = done ++ .replicate moves.length .parent := by
  fun_induction correctFrom files start threshold done moves with
  | case1 done =>
    cases h
    exact (List.append_nil _).symm
  | case6 done move moves hchild ih =>
    rw [List.forall_mem_cons] at hmoves
    rw [List.any_cons, Bool.or_eq_false_iff] at hany
    rw [ih hmoves.2 hany.2 h, List.append_assoc]
    cases move with
    | stay => exact hmoves.1.elim
    | parent => rfl
    | child name => exact absurd rfl (hchild name)
  | case2 => contradiction
  | case3 => contradiction
  | case4 => contradiction
  | case5 => contradiction

theorem exists_last_of_correctFrom (hmoves : ∀ move ∈ moves, move.IsMove)
    (hany : moves.any Step.isChild = true)
    (h : correctFrom files start threshold done moves = .ok result) :
    ∃ front name entries entry rises, result = front ++ .child name :: .replicate rises .parent ∧
      files.stat (start.join (Path.ofMoves front)) = .ok (.directory entries) ∧
      entries.lookup name = some entry := by
  fun_induction correctFrom files start threshold done moves with
  | case5 done typed moves distance name hclosest hnear done' hdirectory ih =>
    rw [List.forall_mem_cons] at hmoves
    cases hrest : moves.any Step.isChild with
    | true => exact ih hmoves.2 hrest h
    | false =>
      -- This is the last name, which is not looked up after it has been taken from the listing.
      obtain ⟨entries, entry, hstat, hentry⟩ := exists_lookup_of_closestChild? hclosest
      refine ⟨done, name, entries, entry, moves.length, ?_, hstat, hentry⟩
      rw [eq_replicate_of_correctFrom hmoves.2 hrest h]
      simp [done']
  | case6 done move moves hchild ih =>
    rw [List.forall_mem_cons] at hmoves
    apply ih hmoves.2 _ h
    cases move with
    | child name => exact absurd rfl (hchild name)
    | _ => exact hany
  | case1 => contradiction
  | case2 => contradiction
  | case3 => contradiction
  | case4 => contradiction

end correctFrom

section join

variable {base start found : Path} {moves : List Step}

theorem eq_nil_of_getLast?_steps_join (hmoves : ∀ move ∈ moves, move.IsMove)
    (h : (base.join (Path.ofMoves moves)).steps.getLast? = some .stay) : moves = [] := by
  by_cases hne : moves = []
  · exact hne
  · rw [Path.steps_join (Path.isAbsolute_ofMoves hmoves), Path.steps_ofMoves hne hmoves,
      List.getLast?_append_of_ne_nil _ hne] at h
    exact (hmoves .stay (List.mem_of_getLast? h)).elim

theorem sameAs_join_found (hmoves : ∀ move ∈ moves, move.IsMove) (hne : moves ≠ [])
    (hfound : start = base ∧ found = Path.ofMoves moves ∨
      start = [Path.slash] ∧ (∃ below, Path.below? base moves = some below ∧
        found = Path.ofMoves below) ∨
      start = [Path.slash] ∧ Path.below? base moves = none ∧
        found = Path.slash :: Path.ofMoves moves) :
    Path.SameAs (start.join (Path.ofMoves moves)) (base.join found) ∧
      (start.join (Path.ofMoves moves)).length ≤ (base.join found).length ∧
      ((base.join found).steps.getLast? = some .stay → Path.SameAs base (base.join found)) := by
  have hrelative := Path.isAbsolute_ofMoves hmoves
  have hself : ∀ {path : Path}, Path.SameAs path path := ⟨rfl, rfl⟩
  rcases hfound with ⟨rfl, rfl⟩ | ⟨rfl, below, hbelow, rfl⟩ | ⟨rfl, _, rfl⟩
  · refine ⟨hself, Nat.le_refl _, fun hstay => ?_⟩
    exact absurd (eq_nil_of_getLast?_steps_join hmoves hstay) hne
  · obtain ⟨habsolute, rfl⟩ := Path.of_below?_eq_some hbelow
    have hmove : ∀ move ∈ below, move.IsMove :=
      fun move hmove => hmoves move (List.mem_append_right _ hmove)
    have hroot : Path.moves [Path.slash] = [] := rfl
    have hfull : (base.join (Path.ofMoves below)).isAbsolute = true :=
      (Path.isAbsolute_join (Path.isAbsolute_ofMoves hmove)).trans habsolute
    have hmovesFull : (base.join (Path.ofMoves below)).moves = base.moves ++ below := by
      rw [Path.moves_join (Path.isAbsolute_ofMoves hmove), Path.moves_ofMoves hmove]
    refine ⟨⟨?_, ?_⟩, ?_, fun hstay => ⟨habsolute.trans hfull.symm, ?_⟩⟩
    · rw [Path.isAbsolute_join hrelative, hfull]
      rfl
    · rw [Path.moves_join hrelative, Path.moves_ofMoves hmoves, hmovesFull, hroot,
        List.nil_append]
    · have hlt := Path.length_ofMoves_moves_lt hfull
      rw [hmovesFull] at hlt
      have hslash : Path.lengthBefore [Path.slash] = 1 := rfl
      rw [Path.length_join hrelative, hslash, Nat.add_comm]
      exact hlt
    · rw [hmovesFull, eq_nil_of_getLast?_steps_join hmove hstay, List.append_nil]
  · have habsolute : Path.isAbsolute (Path.slash :: Path.ofMoves moves) = true := rfl
    have hjoin : Path.join [Path.slash] (Path.ofMoves moves) =
        Path.slash :: Path.ofMoves moves := by
      unfold Path.join
      rw [hrelative]
      rfl
    rw [Path.join_of_isAbsolute habsolute, ← hjoin]
    refine ⟨hself, Nat.le_refl _, fun hstay => ?_⟩
    exact absurd (eq_nil_of_getLast?_steps_join hmoves hstay) hne

end join

/--
The path that is meant by a correction ends in an entry of a directory. It exists unless it is too
long, the entry is a link that leads nowhere, or moves to a parent follow something that is no
directory.
-/
theorem exists_endsIn_closestPath? {base path found : Path} (hproper : files.HasProperNames)
    (hshort : files.HasShortNames) (hbase : files.isDirectory base = true)
    (h : closestPath? files base path = some found) :
    ∃ directory name entry rises, files.EndsIn (base.join found) directory name entry rises ∧
      (files.pathExists (base.join found) = true ↔
        (base.join found).length ≤ FileSystem.maxPathLength ∧
          ((∃ target, entry = .link target) → files.pathExists (directory.join name) = true) ∧
          (0 < rises → files.isDirectory (directory.join name) = true)) := by
  obtain ⟨hcount, start, moves, hcorrected, hfound⟩ :=
    exists_correctFrom_of_correct (closestPath?_eq_some_iff.1 h)
  have htyped : ∀ move ∈ path.moves, move.IsMove := fun _ => Path.isMove_of_mem_moves
  have hany : path.moves.any Step.isChild = true :=
    List.any_eq_true.2 (List.countP_pos_iff.1 (Nat.pos_of_ne_zero hcount))
  have hmoves := isMove_of_correctFrom hproper (by simp) htyped hcorrected
  obtain ⟨front, name, entries, entry, rises, rfl, hstat, hentry⟩ :=
    exists_last_of_correctFrom htyped hany hcorrected
  obtain ⟨hsame, hlength, hlast⟩ := sameAs_join_found hmoves (by simp) hfound
  have hfront : ∀ move ∈ front, move.IsMove :=
    fun move hmove => hmoves move (List.mem_append_left _ hmove)
  have hends : files.EndsIn (base.join found) (start.join (Path.ofMoves front)) name entry rises := by
    refine ⟨?_, ?_, entries, hstat, hentry⟩
    · rw [← hsame.1, Path.isAbsolute_join (Path.isAbsolute_ofMoves hmoves),
        Path.isAbsolute_join (Path.isAbsolute_ofMoves hfront)]
    · rw [← hsame.2, Path.moves_join (Path.isAbsolute_ofMoves hmoves), Path.moves_ofMoves hmoves,
        Path.moves_join (Path.isAbsolute_ofMoves hfront), Path.moves_ofMoves hfront,
        List.append_assoc]
  obtain ⟨place, _, hplace⟩ := FileSystem.stat_eq_ok_iff.1 hstat
  refine ⟨_, name, entry, rises, hends, hends.pathExists_iff ?_ ?_ ?_ ?_⟩
  · exact hmoves (.child name) (by simp)
  · exact hshort place entries hplace _ (mem_of_lookup_eq_some hentry)
  · exact Nat.le_trans (Path.length_join_join_le start hmoves) hlength
  · exact fun hstay => ⟨base, hbase, hlast hstay⟩

def notesName : Name := Utf8.encode ['n', 'o', 't', 'e', 's', '.', 'm', 'd']

def notes : FileSystem := ⟨[(notesName, .file false (.data []))], some []⟩

def aboveNotes : Path := Path.ofMoves [.child notesName, .parent]

theorem forall_names_notes {p : Name → Prop} (h : p notesName) :
    ∀ place below, notes.node? place = some (.directory below) → ∀ entry ∈ below, p entry.1 := by
  apply FileNode.forall_names_directory
  · exact List.forall_mem_singleton.2 h
  · exact List.forall_mem_singleton.2 (FileNode.forall_names_of_not_directory (by simp))

theorem closestPath?_aboveNotes : closestPath? notes [Path.slash] aboveNotes = some aboveNotes := by
  have htext : notes.HasTextNames := forall_names_notes ⟨_, rfl⟩
  have hmoves : aboveNotes.moves = [.child notesName, .parent] := rfl
  rw [closestPath?_eq_some_iff_of_relative htext rfl, hmoves]
  refine ⟨by decide, [.child notesName, .parent], rfl, .child ?_ ?_ ?_ (.parent (.nil _))⟩
  · have hlist := FileSystem.list_eq_ok_iff.2 ⟨_, notes.stat_slash, rfl⟩
    exact ⟨_, hlist, List.mem_singleton_self _, List.forall_mem_singleton.2 (le_refl _)⟩
  · rw [(Spelling.distance_eq_zero_iff _ _).2 rfl]
    exact Nat.zero_le _
  · intro h
    contradiction

theorem not_pathExists_aboveNotes :
    closestPath? notes [Path.slash] aboveNotes = some aboveNotes ∧
      notes.pathExists (Path.join [Path.slash] aboveNotes) = false := by
  refine ⟨closestPath?_aboveNotes, ?_⟩
  have hsteps : (Path.join [Path.slash] aboveNotes).steps = [.child notesName, .parent] := rfl
  have hroot : notes.node? [] = some (.directory notes.root) := rfl
  have hfollow : notes.follow FileSystem.maxLinks [] [.child notesName, .parent] =
      .error .notDirectory := by
    rw [FileSystem.follow_child_of_lookup hroot (by decide) rfl (by simp)]
    exact FileSystem.follow_cons_of_not_directory (by rintro ⟨entries, ⟨⟩⟩) _ _
  unfold FileSystem.pathExists FileSystem.stat FileSystem.locate
  rw [hsteps, hfollow]
  rfl

theorem exists_endsIn_aboveNotes :
    notes.HasProperNames ∧ notes.HasShortNames ∧ notes.isDirectory [Path.slash] = true ∧
      closestPath? notes [Path.slash] aboveNotes = some aboveNotes ∧
      ∃ directory name entry rises,
        notes.EndsIn (Path.join [Path.slash] aboveNotes) directory name entry rises ∧
        (notes.pathExists (Path.join [Path.slash] aboveNotes) = true ↔
          (Path.join [Path.slash] aboveNotes).length ≤ FileSystem.maxPathLength ∧
            ((∃ target, entry = .link target) →
              notes.pathExists (directory.join name) = true) ∧
            (0 < rises → notes.isDirectory (directory.join name) = true)) := by
  have hproper : notes.HasProperNames := forall_names_notes (by decide)
  have hshort : notes.HasShortNames :=
    @forall_names_notes (fun name => name.length ≤ FileSystem.maxNameLength) (by decide)
  have hbase : notes.isDirectory [Path.slash] = true :=
    FileSystem.isDirectory_iff.2 ⟨_, notes.stat_slash⟩
  exact ⟨hproper, hshort, hbase, closestPath?_aboveNotes,
    exists_endsIn_closestPath? hproper hshort hbase closestPath?_aboveNotes⟩

end PathCorrection

end Preflight
