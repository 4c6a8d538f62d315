import Mathlib.Data.List.Lex
import Mathlib.Data.Prod.Lex
import Preflight.Proofs.Files.Reordered
import Preflight.Proofs.PathCorrection
import Preflight.Proofs.Spelling
import Preflight.Proofs.Text.Utf8

/-!
This module contains that the correction of a path takes the first name by distance and name in every
directory it comes to, in whatever order the directories are listed, and that a corrected path needs
no further correction.
-/

namespace Preflight

instance instLinearOrderUInt8 : LinearOrder UInt8 where
  le_refl := UInt8.le_refl
  le_trans _ _ _ := UInt8.le_trans
  le_antisymm _ _ := UInt8.le_antisymm
  le_total := UInt8.le_total
  lt_iff_le_not_ge a b := by
    rw [UInt8.not_le, and_iff_right_of_imp UInt8.le_of_lt]
  toDecidableLE := inferInstance

def Name.IsText (name : Name) : Prop := ∃ t, name = Utf8.encode t

def FileSystem.HasTextNames (files : FileSystem) : Prop :=
  ∀ place entries, files.node? place = some (.directory entries) →
    ∀ entry ∈ entries, Name.IsText entry.1

theorem FileSystem.HasTextNames.reordered {files files' : FileSystem} (htext : files.HasTextNames)
    (h : files.Reordered files') : files'.HasTextNames := by
  intro place entries' hplace' entry' hentry'
  obtain ⟨entries, hplace, hentries⟩ := h.symm.exists_directory hplace'
  cases hentries with
  | directory names nodes =>
    obtain ⟨entry, hentry, heq⟩ := List.mem_map.1 (names.mem_iff.1 (List.mem_map_of_mem hentry'))
    rw [← heq]
    exact htext place entries hplace entry hentry

theorem Name.IsText.eq_of_decodeLossy_eq {a b : Name} (ha : a.IsText) (hb : b.IsText)
    (h : Utf8.decodeLossy a = Utf8.decodeLossy b) : a = b := by
  obtain ⟨t, rfl⟩ := ha
  obtain ⟨u, rfl⟩ := hb
  rw [Utf8.decodeLossy_encode, Utf8.decodeLossy_encode] at h
  rw [h]

namespace PathCorrection

theorem isCloser_iff (a b : Nat × Name) : isCloser a b = true ↔ toLex a < toLex b := by
  rw [Prod.Lex.toLex_lt_toLex]
  simp [isCloser]

section closestOf

variable {typed : Text} {names names' : List Name} {closest : Nat × Name}

theorem toLex_closer_le {best : Option (Nat × Name)} {found : Nat × Name} :
    let next := match best with
      | none => found
      | some best => if isCloser found best then found else best
    toLex next ≤ toLex found ∧ ∀ other ∈ best, toLex next ≤ toLex other := by
  cases best with
  | none => simp
  | some best =>
    dsimp only
    split
    · next h =>
      rw [isCloser_iff] at h
      simpa using le_of_lt h
    · next h =>
      rw [isCloser_iff, not_lt] at h
      simpa using h

theorem toLex_candidate_le_of_distance_eq_zero {name other : Name} (hname : name.IsText)
    (hother : other.IsText) (h : Spelling.distance (Utf8.decodeLossy name) typed = 0) :
    toLex (candidate typed name) ≤ toLex (candidate typed other) := by
  rw [Prod.Lex.toLex_le_toLex]
  unfold candidate
  -- Two names at distance zero are one name, since both are well-formed.
  by_cases hzero : Spelling.distance (Utf8.decodeLossy other) typed = 0
  · rw [Spelling.distance_eq_zero_iff] at h hzero
    rw [hname.eq_of_decodeLossy_eq hother (h.trans hzero.symm)]
    exact .inr ⟨rfl, le_refl _⟩
  · left
    dsimp only
    omega

theorem toLex_closestOf_le {best : Option (Nat × Name)} (hnames : ∀ name ∈ names, name.IsText)
    (h : closestOf typed best names = some closest) :
    (∀ other ∈ best, toLex closest ≤ toLex other) ∧
      ∀ name ∈ names, toLex closest ≤ toLex (candidate typed name) := by
  fun_induction closestOf typed best names with
  | case1 best =>
    rw [h]
    simp
  | case2 best name names found next hzero =>
    injection h with h
    rw [List.forall_mem_cons] at hnames ⊢
    rw [← h]
    obtain ⟨hfound, hbest⟩ := @toLex_closer_le best found
    refine ⟨hbest, hfound, ?_⟩
    -- The names that are not looked at any more are not closer than this one.
    intro other hother
    exact hfound.trans (toLex_candidate_le_of_distance_eq_zero hnames.1 (hnames.2 other hother) hzero)
  | case3 best name names found next hzero ih =>
    rw [List.forall_mem_cons] at hnames ⊢
    obtain ⟨hfound, hbest⟩ := @toLex_closer_le best found
    obtain ⟨hnext, hrest⟩ := ih hnames.2 h
    have hle := hnext next rfl
    exact ⟨fun other hother => hle.trans (hbest other hother), hle.trans hfound, hrest⟩

theorem exists_closestOf {best : Option (Nat × Name)} (h : best ≠ none ∨ names ≠ []) :
    ∃ closest, closestOf typed best names = some closest := by
  fun_induction closestOf typed best names with
  | case1 best => exact Option.ne_none_iff_exists'.1 (h.resolve_right (by simp))
  | case2 best name names found next hzero => exact ⟨next, rfl⟩
  | case3 best name names found next hzero ih => exact ih (.inl (by simp))

theorem closestOf_eq_some_iff (hnames : ∀ name ∈ names, name.IsText) :
    closestOf typed none names = some closest ↔
      ∃ name ∈ names, closest = candidate typed name ∧
        ∀ other ∈ names, toLex (candidate typed name) ≤ toLex (candidate typed other) := by
  have hfirst : ∀ closest, closestOf typed none names = some closest →
      ∃ name ∈ names, closest = candidate typed name ∧
        ∀ other ∈ names, toLex (candidate typed name) ≤ toLex (candidate typed other) := by
    intro closest h
    obtain ⟨name, hname, rfl⟩ :=
      @closestOf_induction (fun found => ∃ name ∈ names, found = candidate typed name) _ _ _ _
        (by simp) (fun name hname => ⟨name, hname, rfl⟩) h
    exact ⟨name, hname, rfl, (toLex_closestOf_le hnames h).2⟩
  constructor
  · exact hfirst closest
  · rintro ⟨name, hname, rfl, hle⟩
    obtain ⟨closest, hclosest⟩ := @exists_closestOf typed _ none (.inr (List.ne_nil_of_mem hname))
    obtain ⟨other, hother, rfl, hleast⟩ := hfirst closest hclosest
    rw [hclosest, toLex.injective (le_antisymm (hleast name hname) (hle other hother))]

end closestOf

def rank (typed name : Name) : ℕ ×ₗ Name := toLex (candidate (Utf8.decodeLossy typed) name)

def IsClosest (files : FileSystem) (directory : Path) (typed name : Name) : Prop :=
  ∃ names, files.list directory = .ok names ∧ name ∈ names ∧
    ∀ other ∈ names, rank typed name ≤ rank typed other

section closest

variable {files files' : FileSystem} {directory : Path} {typed name : Name}

theorem closestChild?_eq_some_iff (htext : files.HasTextNames) {found : Nat × Name} :
    closestChild? files directory typed = some found ↔
      ∃ name, found = candidate (Utf8.decodeLossy typed) name ∧
        IsClosest files directory typed name := by
  unfold closestChild? IsClosest rank
  cases hlist : files.list directory with
  | error error => simp
  | ok names =>
    dsimp only
    rw [closestOf_eq_some_iff (FileSystem.forall_mem_list htext hlist)]
    constructor
    · rintro ⟨name, hname, hfound, hle⟩
      exact ⟨name, hfound, names, rfl, hname, hle⟩
    · rintro ⟨name, hfound, _, hnames, hname, hle⟩
      cases hnames
      exact ⟨name, hname, hfound, hle⟩

theorem IsClosest.self (htext : files.HasTextNames) (h : IsClosest files directory typed name) :
    IsClosest files directory name name := by
  obtain ⟨names, hlist, hname, _⟩ := h
  have hnames := FileSystem.forall_mem_list htext hlist
  refine ⟨names, hlist, hname, ?_⟩
  intro other hother
  apply toLex_candidate_le_of_distance_eq_zero (hnames name hname) (hnames other hother)
  rw [Spelling.distance_eq_zero_iff]

theorem IsClosest.reordered (hfiles : files.Reordered files')
    (h : IsClosest files directory typed name) : IsClosest files' directory typed name := by
  obtain ⟨names, hlist, hname, hle⟩ := h
  obtain ⟨names', hlist', hperm⟩ := hfiles.exists_list hlist
  exact ⟨names', hlist', hperm.mem_iff.1 hname, fun other hother => hle other (hperm.mem_iff.2 hother)⟩

end closest

/--
Whether the moves `taken` go to a parent where the typed ones do and otherwise to the closest name
in the directory that the moves `done` and those before have led to. The name must be close enough,
and it must be a directory if there are names left.
-/
inductive IsGreedy (files : FileSystem) (start : Path) (threshold : Nat) :
    List Step → List Step → List Step → Prop
  | nil (done : List Step) : IsGreedy files start threshold done [] []
  | parent {done moves taken : List Step}
    (rest : IsGreedy files start threshold (done ++ [.parent]) moves taken) :
    IsGreedy files start threshold done (.parent :: moves) (.parent :: taken)
  | child {done moves taken : List Step} {typed name : Name}
    (closest : IsClosest files (start.join (Path.ofMoves done)) typed name)
    (near : Spelling.distance (Utf8.decodeLossy name) (Utf8.decodeLossy typed) ≤ threshold)
    (directory : moves.any Step.isChild = true →
      files.isDirectory (start.join (Path.ofMoves (done ++ [.child name]))) = true)
    (rest : IsGreedy files start threshold (done ++ [.child name]) moves taken) :
    IsGreedy files start threshold done (.child typed :: moves) (.child name :: taken)

section greedy

variable {files files' : FileSystem} {start : Path} {threshold : Nat}
  {done moves taken result : List Step}

theorem IsGreedy.map_isChild_eq (h : IsGreedy files start threshold done moves taken) :
    taken.map Step.isChild = moves.map Step.isChild := by
  induction h with
  | nil done => rfl
  | parent rest ih => rw [List.map_cons, List.map_cons, ih]
  | child closest near directory rest ih =>
    rw [List.map_cons, List.map_cons, ih]
    rfl

theorem IsGreedy.self (htext : files.HasTextNames)
    (h : IsGreedy files start threshold done moves taken) :
    IsGreedy files start threshold done taken taken := by
  induction h with
  | nil done => exact nil done
  | parent rest ih => exact parent ih
  | @child done moves taken typed name closest near directory rest ih =>
    -- Whether the name must be a directory depends on how many names are left, which is the same.
    have hany : taken.any Step.isChild = moves.any Step.isChild := by
      have := congrArg (List.any · id) rest.map_isChild_eq
      simpa [List.any_map] using this
    refine child (closest.self htext) ?_ ?_ ih
    · rw [(Spelling.distance_eq_zero_iff _ _).2 rfl]
      exact Nat.zero_le threshold
    · rw [hany]
      exact directory

theorem IsGreedy.reordered (hfiles : files.Reordered files')
    (h : IsGreedy files start threshold done moves taken) :
    IsGreedy files' start threshold done moves taken := by
  induction h with
  | nil done => exact nil done
  | parent rest ih => exact parent ih
  | child closest near directory rest ih =>
    refine child (closest.reordered hfiles) near ?_ ih
    rw [hfiles.isDirectory_eq]
    exact directory

theorem isGreedy_of_correctFrom (htext : files.HasTextNames) (hmoves : ∀ move ∈ moves, move ≠ .stay)
    (h : correctFrom files start threshold done moves = .ok result) :
    ∃ taken, result = done ++ taken ∧ IsGreedy files start threshold done moves taken := by
  fun_induction correctFrom files start threshold done moves with
  | case1 done =>
    cases h
    exact ⟨[], (List.append_nil _).symm, .nil _⟩
  | case5 done typed moves distance name hclosest hnear done' hdirectory ih =>
    rw [List.forall_mem_cons] at hmoves
    obtain ⟨taken, rfl, hrest⟩ := ih hmoves.2 h
    obtain ⟨name', hfound, hfirst⟩ := (closestChild?_eq_some_iff htext).1 hclosest
    cases hfound
    refine ⟨.child name :: taken, by simp [done'], .child hfirst (Nat.le_of_not_lt hnear) ?_ hrest⟩
    intro hany
    rw [not_and_not_right] at hdirectory
    exact hdirectory hany
  | case6 done move moves hchild ih =>
    rw [List.forall_mem_cons] at hmoves
    obtain ⟨taken, rfl, hrest⟩ := ih hmoves.2 h
    cases move with
    | stay => exact absurd rfl hmoves.1
    | parent => exact ⟨.parent :: taken, by simp, .parent hrest⟩
    | child name => exact absurd rfl (hchild name)
  | case2 => contradiction
  | case3 => contradiction
  | case4 => contradiction

theorem correctFrom_of_isGreedy (htext : files.HasTextNames)
    (h : IsGreedy files start threshold done moves taken) :
    correctFrom files start threshold done moves = .ok (done ++ taken) := by
  induction h with
  | nil done => rw [correctFrom, List.append_nil]
  | @parent done moves taken rest ih =>
    rw [correctFrom, ih, List.append_assoc, List.singleton_append]
    simp
  | @child done moves taken typed name closest near directory rest ih =>
    have hfound := (closestChild?_eq_some_iff htext).2 ⟨name, rfl, closest⟩
    rw [correctFrom, hfound]
    unfold candidate
    dsimp only
    rw [if_neg (Nat.not_lt_of_le near), if_neg (not_and_not_right.2 directory), ih,
      List.append_assoc, List.singleton_append]

theorem correctFrom_eq_ok_iff (htext : files.HasTextNames) (hmoves : ∀ move ∈ moves, move ≠ .stay) :
    correctFrom files start threshold done moves = .ok result ↔
      ∃ taken, result = done ++ taken ∧ IsGreedy files start threshold done moves taken := by
  constructor
  · exact isGreedy_of_correctFrom htext hmoves
  · rintro ⟨taken, rfl, h⟩
    exact correctFrom_of_isGreedy htext h

end greedy

section closestPath?

variable {files files' : FileSystem} {base path found : Path}

theorem correct_eq_ok_iff_of_relative (hrelative : path.isAbsolute = false) :
    correct files base path = .ok found ↔
      path.moves.countP Step.isChild ≠ 0 ∧ ∃ moves,
        correctFrom files base (threshold (path.moves.countP Step.isChild)) [] path.moves =
          .ok moves ∧ found = Path.ofMoves moves := by
  unfold correct
  dsimp only
  rw [hrelative]
  split
  · next hzero => simp [hzero]
  · next hne =>
    rw [if_neg Bool.false_ne_true, and_iff_right hne]
    constructor
    · exact exists_of_map_eq_ok
    · rintro ⟨moves, hmoves, rfl⟩
      rw [hmoves]
      rfl

theorem closestPath?_eq_some_iff_of_relative (htext : files.HasTextNames)
    (hrelative : path.isAbsolute = false) :
    closestPath? files base path = some found ↔
      path.moves.countP Step.isChild ≠ 0 ∧ ∃ taken, found = Path.ofMoves taken ∧
        IsGreedy files base (threshold (path.moves.countP Step.isChild)) [] path.moves taken := by
  have hmoves : ∀ move ∈ path.moves, move ≠ .stay := by
    intro move hmove
    exact of_decide_eq_true (List.mem_filter.1 hmove).2
  rw [closestPath?_eq_some_iff, correct_eq_ok_iff_of_relative hrelative]
  simp only [correctFrom_eq_ok_iff htext hmoves, List.nil_append]
  apply and_congr_right
  rintro -
  constructor
  · rintro ⟨taken, ⟨_, rfl, hgreedy⟩, hfound⟩
    exact ⟨taken, hfound, hgreedy⟩
  · rintro ⟨taken, hfound, hgreedy⟩
    exact ⟨taken, ⟨taken, rfl, hgreedy⟩, hfound⟩

/--
The correction of a relative path goes to a parent where the path does and takes the first name by
distance and name in every directory it comes to. The order in which directories are listed does not
matter, and the correction is its own correction.
-/
theorem isGreedy_closestPath? (hproper : files.HasProperNames) (htext : files.HasTextNames)
    (hrelative : path.isAbsolute = false) (h : closestPath? files base path = some found) :
    IsGreedy files base (2 + 2 * path.moves.countP Step.isChild) [] path.moves found.steps ∧
      found.isAbsolute = false ∧ found = Path.ofMoves found.steps ∧
      (∀ files', files.Reordered files' → closestPath? files' base path = some found) ∧
      closestPath? files base found = some found := by
  obtain ⟨hne, taken, rfl, hgreedy⟩ := (closestPath?_eq_some_iff_of_relative htext hrelative).1 h
  have htyped : ∀ move ∈ path.moves, move.IsMove := fun _ => Path.isMove_of_mem_moves
  have htaken : ∀ move ∈ taken, move.IsMove :=
    isMove_of_correctFrom hproper (by simp) htyped (correctFrom_of_isGreedy htext hgreedy)
  have hcount : taken.countP Step.isChild = path.moves.countP Step.isChild := by
    have := congrArg (List.countP id) hgreedy.map_isChild_eq
    simpa [List.countP_map] using this
  have hsteps : (Path.ofMoves taken).steps = taken := by
    apply Path.steps_ofMoves _ htaken
    rintro rfl
    exact hne hcount.symm
  have habsolute := Path.isAbsolute_ofMoves htaken
  rw [hsteps]
  refine ⟨hgreedy, habsolute, rfl, ?_, ?_⟩
  · intro files' hfiles
    rw [closestPath?_eq_some_iff_of_relative (htext.reordered hfiles) hrelative]
    exact ⟨hne, taken, rfl, hgreedy.reordered hfiles⟩
  · rw [closestPath?_eq_some_iff_of_relative htext habsolute, Path.moves_ofMoves htaken, hcount]
    exact ⟨hne, taken, rfl, hgreedy.self htext⟩

end closestPath?

def sources : FileSystem :=
  ⟨[(Utf8.encode ['s', 'r', 'c'], .directory
      [(Utf8.encode ['l', 'i', 'b'], .file false (.data [])),
        (Utf8.encode ['m', 'a', 'i', 'n'], .file false (.data []))])], some []⟩

theorem forall_names_sources {p : Name → Prop} (hsrc : p (Utf8.encode ['s', 'r', 'c']))
    (hlib : p (Utf8.encode ['l', 'i', 'b'])) (hmain : p (Utf8.encode ['m', 'a', 'i', 'n'])) :
    ∀ place below, sources.node? place = some (.directory below) → ∀ entry ∈ below, p entry.1 := by
  apply FileNode.forall_names_directory
  · simpa [sources] using hsrc
  · simp only [sources, List.map_cons, List.map_nil, List.forall_mem_singleton]
    apply FileNode.forall_names_directory
    · simpa using ⟨hlib, hmain⟩
    · simp only [List.map_cons, List.map_nil, List.forall_mem_cons]
      exact ⟨FileNode.forall_names_of_not_directory (by simp),
        FileNode.forall_names_of_not_directory (by simp), List.forall_mem_nil _⟩

theorem rank_le_of_distance_lt {typed name other : Text}
    (h : Spelling.distance name typed < Spelling.distance other typed) :
    rank (Utf8.encode typed) (Utf8.encode name) ≤ rank (Utf8.encode typed) (Utf8.encode other) := by
  unfold rank candidate
  rw [Prod.Lex.toLex_le_toLex, Utf8.decodeLossy_encode, Utf8.decodeLossy_encode,
    Utf8.decodeLossy_encode]
  exact .inl h

theorem isGreedy_sources :
    IsGreedy sources [Path.slash] 6 []
      [.child (Utf8.encode ['s', 'c', 'r']), .child (Utf8.encode ['m', 'i', 'a', 'n'])]
      [.child (Utf8.encode ['s', 'r', 'c']), .child (Utf8.encode ['m', 'a', 'i', 'n'])] := by
  have hsrc : sources.stat (Utf8.encode ['/', 's', 'r', 'c']) = .ok (.directory _) :=
    @FileSystem.stat_of_node? _ _ [Utf8.encode ['s', 'r', 'c']] _ (by decide) (by decide) rfl rfl
      (by decide) rfl (by simp)
  refine .child ⟨_, FileSystem.list_eq_ok_iff.2 ⟨_, sources.stat_slash, rfl⟩, by decide, by simp [sources]⟩ ?_ ?_
    (.child ⟨_, FileSystem.list_eq_ok_iff.2 ⟨_, hsrc, rfl⟩, by decide, ?_⟩ ?_ ?_ (.nil _))
  · rw [Utf8.decodeLossy_encode, Utf8.decodeLossy_encode]
    decide
  · intro _
    exact FileSystem.isDirectory_iff.2 ⟨_, hsrc⟩
  · simp only [List.map_cons, List.map_nil, List.forall_mem_cons]
    exact ⟨rank_le_of_distance_lt (by decide), le_refl _, List.forall_mem_nil _⟩
  · rw [Utf8.decodeLossy_encode, Utf8.decodeLossy_encode]
    decide
  · intro h
    contradiction

theorem isGreedy_closestPath?_sources :
    let typed : Path := Utf8.encode ['.', '/', 's', 'c', 'r', '/', 'm', 'i', 'a', 'n']
    let found : Path := Utf8.encode ['s', 'r', 'c', '/', 'm', 'a', 'i', 'n']
    sources.HasProperNames ∧ sources.HasTextNames ∧ typed.isAbsolute = false ∧
      closestPath? sources [Path.slash] typed = some found ∧
      (∀ files', sources.Reordered files' →
        closestPath? files' [Path.slash] typed = some found) ∧
      closestPath? sources [Path.slash] found = some found := by
  intro typed found
  have hproper : sources.HasProperNames :=
    forall_names_sources (by decide) (by decide) (by decide)
  have htext : sources.HasTextNames := forall_names_sources ⟨_, rfl⟩ ⟨_, rfl⟩ ⟨_, rfl⟩
  have hfound : closestPath? sources [Path.slash] typed = some found :=
    (closestPath?_eq_some_iff_of_relative htext rfl).2 ⟨by decide, _, rfl, isGreedy_sources⟩
  obtain ⟨_, _, _, horder, hstable⟩ := isGreedy_closestPath? hproper htext rfl hfound
  exact ⟨hproper, htext, rfl, hfound, horder, hstable⟩

end PathCorrection

end Preflight
