import Preflight.PathCorrection
import Preflight.Proofs.Files.FileSystem

/-!
This module contains what the correction of a path can come to.
-/

namespace Preflight

namespace PathCorrection

variable {files : FileSystem}

def candidate (typed : Text) (name : Name) : Nat × Name :=
  (Spelling.distance (Utf8.decodeLossy name) typed, name)

theorem closer_induction {p : Nat × Name → Prop} {best : Option (Nat × Name)} {found : Nat × Name}
    (hfound : p found) :
    (∀ other ∈ best, p other) →
      p (match best with
        | none => found
        | some best => if isCloser found best then found else best) := by
  intro hbest
  cases best with
  | none => exact hfound
  | some best =>
    dsimp only
    split
    · exact hfound
    · exact hbest best rfl

theorem closestOf_induction {p : Nat × Name → Prop} {typed : Text} {best : Option (Nat × Name)}
    {names : List Name} {closest : Nat × Name} (hbest : ∀ found ∈ best, p found)
    (hnames : ∀ name ∈ names, p (candidate typed name))
    (h : closestOf typed best names = some closest) : p closest := by
  fun_induction closestOf typed best names with
  | case1 best => exact hbest closest h
  | case2 best name names found next hzero =>
    injection h with h
    rw [← h]
    exact @closer_induction p _ _ (hnames name List.mem_cons_self) hbest
  | case3 best name names found next hzero ih =>
    apply ih _ (fun n hn => hnames n (List.mem_cons_of_mem name hn)) h
    intro other hother
    injection hother with hother
    rw [← hother]
    exact @closer_induction p _ _ (hnames name List.mem_cons_self) hbest

theorem isProper_of_closestChild? {directory : Path} {typed : Name} {distance : Nat} {name : Name}
    (hproper : files.HasProperNames)
    (h : closestChild? files directory typed = some (distance, name)) : Name.IsProper name := by
  unfold closestChild? at h
  split at h
  · next names hlist =>
    have hnames : ∀ name ∈ names, Name.IsProper name := FileSystem.forall_mem_list hproper hlist
    exact @closestOf_induction (fun found => Name.IsProper found.2) _ _ _ _ (by simp) hnames h
  · contradiction

theorem isMove_of_correctFrom {start : Path} {threshold : Nat} {done moves result : List Step}
    (hproper : files.HasProperNames) (hdone : ∀ move ∈ done, move.IsMove)
    (hmoves : ∀ move ∈ moves, move.IsMove)
    (h : correctFrom files start threshold done moves = .ok result) :
    ∀ move ∈ result, move.IsMove := by
  fun_induction correctFrom files start threshold done moves with
  | case1 done =>
    cases h
    exact hdone
  | case5 done typed moves distance name hclosest hnear done' hdirectory ih =>
    refine ih ?_ (fun move hmove => hmoves move (List.mem_cons_of_mem _ hmove)) h
    intro move hmove
    rcases List.mem_append.1 hmove with hmove | hmove
    · exact hdone move hmove
    · -- The name that takes the place of the typed one comes from a directory.
      rw [List.mem_singleton.1 hmove]
      exact isProper_of_closestChild? hproper hclosest
  | case6 done move moves hchild ih =>
    refine ih ?_ (fun move hmove => hmoves move (List.mem_cons_of_mem _ hmove)) h
    intro other hother
    rcases List.mem_append.1 hother with hother | hother
    · exact hdone other hother
    · rw [List.mem_singleton.1 hother]
      exact hmoves move List.mem_cons_self
  | case2 => contradiction
  | case3 => contradiction
  | case4 => contradiction

theorem exists_correctFrom_of_correct {base path found : Path}
    (h : correct files base path = .ok found) :
    path.moves.countP Step.isChild ≠ 0 ∧ ∃ start moves,
      correctFrom files start (threshold (path.moves.countP Step.isChild)) [] path.moves =
        .ok moves ∧
      (start = base ∧ found = Path.ofMoves moves ∨
        start = [Path.slash] ∧ (∃ below, Path.below? base moves = some below ∧
          found = Path.ofMoves below) ∨
        start = [Path.slash] ∧ Path.below? base moves = none ∧
          found = Path.slash :: Path.ofMoves moves) := by
  unfold correct at h
  dsimp only at h
  split at h
  · contradiction
  · next hne =>
    refine ⟨hne, ?_⟩
    split at h
    · obtain ⟨moves, hcorrected, hfound⟩ := exists_of_bind_eq_ok h
      refine ⟨[Path.slash], moves, hcorrected, .inr ?_⟩
      split at hfound
      · next below hbelow => exact .inl ⟨rfl, below, hbelow, (Except.ok.inj hfound).symm⟩
      · next hnot => exact .inr ⟨rfl, hnot, (Except.ok.inj hfound).symm⟩
    · obtain ⟨moves, hcorrected, hfound⟩ := exists_of_map_eq_ok h
      exact ⟨base, moves, hcorrected, .inl ⟨rfl, hfound⟩⟩

theorem exists_moves_of_correct {base path found : Path} (hproper : files.HasProperNames)
    (h : correct files base path = .ok found) :
    ∃ moves : List Step, (∀ move ∈ moves, move.IsMove) ∧
      (found = Path.ofMoves moves ∨
        found = Path.slash :: Path.ofMoves moves ∧
          ¬(base.isAbsolute = true ∧ base.moves <+: moves)) := by
  obtain ⟨_, start, moves, hcorrected, hfound⟩ := exists_correctFrom_of_correct h
  have htyped : ∀ move ∈ path.moves, move.IsMove := fun _ => Path.isMove_of_mem_moves
  have hmoves := isMove_of_correctFrom hproper (by simp) htyped hcorrected
  rcases hfound with ⟨_, hfound⟩ | ⟨_, below, hbelow, hfound⟩ | ⟨_, hnot, hfound⟩
  · exact ⟨moves, hmoves, .inl hfound⟩
  · refine ⟨below, ?_, .inl hfound⟩
    intro move hmove
    exact hmoves move ((Path.suffix_of_below?_eq_some hbelow).mem hmove)
  · exact ⟨moves, hmoves, .inr ⟨hfound, Path.below?_eq_none_iff.1 hnot⟩⟩

theorem closestPath?_eq_some_iff {base path found : Path} :
    closestPath? files base path = some found ↔ correct files base path = .ok found := by
  unfold closestPath?
  cases correct files base path with
  | error failure => simp [Except.toOption]
  | ok moves => simp [Except.toOption]

end PathCorrection

end Preflight
