import Preflight.Proofs.Files.FileSystem

/-!
This module contains how a way through a file system goes on from where its first steps lead, that
nothing but its moves decides where a path leads, and when a path that ends in an entry of a
directory exists.
-/

namespace Preflight

namespace FileSystem

variable {files : FileSystem} {links : Nat} {place result : Place}
  {entries : List (Name × FileNode)}

theorem follow_append (links : Nat) (place : Place) (front : List Step) :
    (∃ error, files.follow links place front = .error error ∧
      ∀ rest, files.follow links place (front ++ rest) = .error error) ∨
    ∃ middle links', files.follow links place front = .ok middle ∧
      ∀ rest, files.follow links place (front ++ rest) = files.follow links' middle rest := by
  fun_induction follow files links place front with
  | case1 links place => exact .inr ⟨place, links, rfl, fun rest => rfl⟩
  | case2 links place steps entries hplace ih =>
    simp only [List.cons_append, follow_stay hplace]
    exact ih
  | case3 links place steps entries hplace ih =>
    simp only [List.cons_append, follow_parent hplace]
    exact ih
  | case4 links place steps entries hplace name hlong =>
    refine .inl ⟨_, rfl, fun rest => ?_⟩
    rw [List.cons_append, follow_child hplace, if_pos hlong]
  | case5 links place steps entries hplace name hshort hlookup =>
    refine .inl ⟨_, rfl, fun rest => ?_⟩
    rw [List.cons_append, follow_child hplace, if_neg hshort, hlookup]
  | case6 place steps entries hplace name hshort target hlookup =>
    refine .inl ⟨_, rfl, fun rest => ?_⟩
    rw [List.cons_append, follow_child hplace, if_neg hshort, hlookup]
  | case7 place steps entries hplace name hshort links hlookup =>
    refine .inl ⟨_, rfl, fun rest => ?_⟩
    rw [List.cons_append, follow_child hplace, if_neg hshort, hlookup]
    rfl
  | case8 place steps entries hplace name hshort target hlookup links hne start ih =>
    -- The target of the link goes in front of the steps that are left, with fewer links allowed.
    have hlink : ∀ rest, files.follow (links + 1) place (.child name :: steps ++ rest) =
        files.follow links start (target.steps ++ steps ++ rest) := by
      intro rest
      rw [List.cons_append, follow_child hplace, if_neg hshort, hlookup, List.append_assoc]
      exact if_neg hne
    simp only [hlink]
    exact ih
  | case9 links place steps entries hplace name hshort node hlink hlookup ih =>
    have hname := Nat.le_of_not_lt hshort
    simp only [List.cons_append, follow_child_of_lookup hplace hname hlookup hlink]
    exact ih
  | case10 links place step steps hplace =>
    refine .inl ⟨_, rfl, fun rest => ?_⟩
    apply follow_cons_of_not_directory
    rintro ⟨entries, hentries⟩
    exact hplace entries hentries

section append

variable {front rest : List Step}

theorem exists_of_follow_append (h : files.follow links place (front ++ rest) = .ok result) :
    ∃ middle links', files.follow links place front = .ok middle ∧
      (∀ rest, files.follow links place (front ++ rest) = files.follow links' middle rest) ∧
      files.follow links' middle rest = .ok result := by
  rcases follow_append links place front with ⟨error, _, herror⟩ | ⟨middle, links', hfront, hrest⟩
  · rw [herror] at h
    contradiction
  · exact ⟨middle, links', hfront, hrest, hrest rest ▸ h⟩

theorem exists_follow_append (h : files.follow links place front = .ok result) :
    ∃ links', ∀ rest, files.follow links place (front ++ rest) =
      files.follow links' result rest := by
  rcases follow_append links place front with ⟨error, herror, _⟩ | ⟨middle, links', hfront, hrest⟩
  · rw [h] at herror
    contradiction
  · rw [h] at hfront
    cases hfront
    exact ⟨links', hrest⟩

end append

theorem exists_directory_of_follow_cons {step : Step} {steps : List Step}
    (h : files.follow links place (step :: steps) = .ok result) :
    ∃ entries, files.node? place = some (.directory entries) := by
  by_cases hplace : ∃ entries, files.node? place = some (.directory entries)
  · exact hplace
  · rw [follow_cons_of_not_directory hplace] at h
    contradiction

theorem exists_follow_replicate_parent (hplace : files.node? place = some (.directory entries))
    (rises : Nat) : ∃ result, files.follow links place (.replicate rises .parent) = .ok result := by
  induction rises generalizing place entries with
  | zero => exact ⟨place, follow_nil links place⟩
  | succ rises ih =>
    obtain ⟨above, habove⟩ := exists_directory_dropLast hplace
    rw [List.replicate_succ, follow_parent hplace]
    exact ih habove

section filter

variable {front steps : List Step}

theorem follow_append_filter (h : files.follow links place (front ++ steps) = .ok result) :
    files.follow links place (front ++ steps.filter (· ≠ .stay)) = .ok result := by
  induction steps generalizing front with
  | nil => exact h
  | cons step steps ih =>
    by_cases hstay : step = .stay
    · rw [List.filter_cons_of_neg (by simpa using hstay)]
      apply ih
      rw [hstay] at h
      by_cases hne : steps = []
      · -- Staying at the end does not move, but has found a directory.
        rw [hne] at h ⊢
        obtain ⟨middle, links', hfront, _, hmiddle⟩ := exists_of_follow_append h
        obtain ⟨entries, hentries⟩ := exists_directory_of_follow_cons hmiddle
        rw [follow_stay hentries, follow_nil] at hmiddle
        rw [List.append_nil, hfront, hmiddle]
      · rwa [follow_append_stay front hne] at h
    · rw [List.filter_cons_of_pos (by simpa using hstay), ← List.singleton_append,
        ← List.append_assoc]
      apply ih
      rwa [List.append_assoc]

theorem follow_append_of_filter
    (hlast : steps.getLast? = some .stay → ∃ entries, files.node? result = some (.directory entries))
    (h : files.follow links place (front ++ steps.filter (· ≠ .stay)) = .ok result) :
    files.follow links place (front ++ steps) = .ok result := by
  induction steps generalizing front with
  | nil => exact h
  | cons step steps ih =>
    have hlast' : steps.getLast? = some .stay →
        ∃ entries, files.node? result = some (.directory entries) := by
      intro hstay
      apply hlast
      rw [List.getLast?_cons, hstay]
      rfl
    by_cases hstay : step = .stay
    · rw [List.filter_cons_of_neg (by simpa using hstay)] at h
      by_cases hne : steps = []
      · rw [hne, List.filter_nil, List.append_nil] at h
        rw [hne, hstay] at hlast ⊢
        obtain ⟨entries, hentries⟩ := hlast rfl
        obtain ⟨links', hrest⟩ := exists_follow_append h
        rw [hrest, follow_stay hentries, follow_nil]
      · rw [hstay, follow_append_stay front hne]
        exact ih hlast' h
    · rw [List.filter_cons_of_pos (by simpa using hstay), ← List.singleton_append,
        ← List.append_assoc] at h
      have := ih hlast' h
      rwa [List.append_assoc] at this

end filter

def Reaches (files : FileSystem) (path : Path) (place : Place) : Prop :=
  ∃ start, (if path.isAbsolute then some [] else files.workingDirectory) = some start ∧
    files.follow maxLinks start path.moves = .ok place

section reaches

variable {path other : Path}

theorem Reaches.of_sameAs (hsame : Path.SameAs path other) (h : files.Reaches path place) :
    files.Reaches other place := by
  unfold Reaches at h ⊢
  rwa [hsame.1, hsame.2] at h

theorem Reaches.unique (h : files.Reaches path place) (h' : files.Reaches path result) :
    place = result := by
  obtain ⟨start, hstart, hfollow⟩ := h
  obtain ⟨start', hstart', hfollow'⟩ := h'
  rw [hstart, Option.some.injEq] at hstart'
  rw [hstart', hfollow'] at hfollow
  exact (Except.ok.inj hfollow).symm

theorem reaches_of_locate (h : files.locate path = .ok place) : files.Reaches path place := by
  obtain ⟨_, _, start, hstart, hfollow⟩ := locate_eq_ok h
  exact ⟨start, hstart, @follow_append_filter _ _ _ _ [] _ hfollow⟩

theorem locate_of_reaches (hne : path ≠ []) (hlength : path.length ≤ maxPathLength)
    (hlast : path.steps.getLast? = some .stay →
      ∃ entries, files.node? place = some (.directory entries))
    (h : files.Reaches path place) : files.locate path = .ok place := by
  obtain ⟨start, hstart, hfollow⟩ := h
  exact locate_of_follow hne hlength hstart (@follow_append_of_filter _ _ _ _ [] _ hlast hfollow)

theorem pathExists_iff_exists_locate :
    files.pathExists path = true ↔ ∃ place, files.locate path = .ok place := by
  unfold pathExists
  constructor
  · intro h
    cases hstat : files.stat path with
    | error error =>
      rw [hstat] at h
      contradiction
    | ok node =>
      obtain ⟨place, hplace, _⟩ := stat_eq_ok_iff.1 hstat
      exact ⟨place, hplace⟩
  · rintro ⟨place, hplace⟩
    obtain ⟨node, hnode, _⟩ := settled_of_locate hplace
    rw [stat_eq_ok_iff.2 ⟨place, hplace, hnode⟩]
    rfl

theorem isDirectory_iff_exists_locate :
    files.isDirectory path = true ↔
      ∃ place, files.locate path = .ok place ∧
        ∃ entries, files.node? place = some (.directory entries) := by
  rw [isDirectory_iff]
  constructor
  · rintro ⟨entries, hstat⟩
    obtain ⟨place, hplace, hentries⟩ := stat_eq_ok_iff.1 hstat
    exact ⟨place, hplace, entries, hentries⟩
  · rintro ⟨place, hplace, entries, hentries⟩
    exact ⟨entries, stat_eq_ok_iff.2 ⟨place, hplace, hentries⟩⟩

end reaches

def HasShortNames (files : FileSystem) : Prop :=
  ∀ place entries, files.node? place = some (.directory entries) →
    ∀ entry ∈ entries, entry.1.length ≤ maxNameLength

/--
Whether a path makes the moves to a directory, to an entry of it and to a parent as often as it
`rises`.
-/
structure EndsIn (files : FileSystem) (path directory : Path) (name : Name) (entry : FileNode)
    (rises : Nat) : Prop where
  isAbsolute_eq : path.isAbsolute = directory.isAbsolute
  moves_eq : path.moves = directory.moves ++ .child name :: .replicate rises .parent
  exists_entries : ∃ entries, files.stat directory = .ok (.directory entries) ∧
    entries.lookup name = some entry

section endsIn

variable {path directory : Path} {name : Name} {entry : FileNode} {rises : Nat}

theorem EndsIn.moves_eq_append (h : files.EndsIn path directory name entry rises)
    (hname : Name.IsProper name) :
    path.moves = (directory.join name).moves ++ .replicate rises .parent := by
  rw [h.moves_eq, Path.moves_join (Path.isAbsolute_of_isProper hname),
    Path.moves_of_isProper hname, List.append_assoc, List.singleton_append]

theorem getLast?_steps_join_name (directory : Path) (hname : Name.IsProper name) :
    (directory.join name).steps.getLast? = some (.child name) := by
  rw [Path.steps_join (Path.isAbsolute_of_isProper hname), Path.steps_of_isProper hname]
  simp

theorem EndsIn.exists_reaches (h : files.EndsIn path directory name entry rises)
    (hname : Name.IsProper name) (hshort : name.length ≤ maxNameLength)
    (hlink : (∃ target, entry = .link target) →
      ∃ place, files.locate (directory.join name) = .ok place) :
    ∃ place, files.Reaches (directory.join name) place := by
  by_cases hentry : ∃ target, entry = .link target
  · obtain ⟨place, hplace⟩ := hlink hentry
    exact ⟨place, reaches_of_locate hplace⟩
  · obtain ⟨entries, hstat, hlookup⟩ := h.exists_entries
    obtain ⟨above, habove, hentries⟩ := stat_eq_ok_iff.1 hstat
    obtain ⟨start, hstart, hfollow⟩ := reaches_of_locate habove
    obtain ⟨links, hrest⟩ := exists_follow_append hfollow
    have hrelative := Path.isAbsolute_of_isProper hname
    refine ⟨above ++ [name], start, ?_, ?_⟩
    · rw [Path.isAbsolute_join hrelative]
      exact hstart
    · rw [Path.moves_join hrelative, Path.moves_of_isProper hname, hrest,
        follow_child_of_lookup hentries hshort hlookup fun target heq => hentry ⟨target, heq⟩,
        follow_nil]

theorem locate_join_name {place : Place} (hname : Name.IsProper name)
    (hlength : (directory.join name).length ≤ maxPathLength)
    (h : files.Reaches (directory.join name) place) :
    files.locate (directory.join name) = .ok place := by
  have hlast := getLast?_steps_join_name directory hname
  apply locate_of_reaches _ hlength _ h
  · intro hnil
    rw [hnil] at hlast
    cases hlast
  · intro hstay
    rw [hlast] at hstay
    cases hstay

section rises

variable {place middle : Place} (h : files.EndsIn path directory name entry rises)
  (hname : Name.IsProper name)
include h hname

theorem EndsIn.isAbsolute_join_name : (directory.join name).isAbsolute = path.isAbsolute := by
  rw [Path.isAbsolute_join (Path.isAbsolute_of_isProper hname), h.isAbsolute_eq]

theorem EndsIn.exists_reaches_of_reaches (hplace : files.Reaches path place) :
    ∃ middle, files.Reaches (directory.join name) middle ∧
      (0 < rises → ∃ entries, files.node? middle = some (.directory entries)) := by
  obtain ⟨start, hstart, hfollow⟩ := hplace
  rw [h.moves_eq_append hname] at hfollow
  obtain ⟨middle, links, hmiddle, _, hrises⟩ := exists_of_follow_append hfollow
  refine ⟨middle, ⟨start, ?_, hmiddle⟩, ?_⟩
  · rw [h.isAbsolute_join_name hname]
    exact hstart
  · intro hpos
    obtain ⟨rises, rfl⟩ := Nat.exists_eq_add_one.2 hpos
    exact exists_directory_of_follow_cons hrises

theorem EndsIn.exists_reaches_of_rises (hmiddle : files.Reaches (directory.join name) middle)
    (hrises : 0 < rises → ∃ entries, files.node? middle = some (.directory entries)) :
    ∃ place, files.Reaches path place := by
  obtain ⟨start, hstart, hfollow⟩ := hmiddle
  obtain ⟨links, hrest⟩ := exists_follow_append hfollow
  have hplace : ∃ place, files.follow links middle (.replicate rises .parent) = .ok place := by
    by_cases hpos : 0 < rises
    · obtain ⟨entries, hentries⟩ := hrises hpos
      exact exists_follow_replicate_parent hentries rises
    · rw [Nat.eq_zero_of_not_pos hpos]
      exact ⟨middle, follow_nil links middle⟩
  obtain ⟨place, hplace⟩ := hplace
  refine ⟨place, start, ?_, ?_⟩
  · rw [← h.isAbsolute_join_name hname]
    exact hstart
  · rw [h.moves_eq_append hname, hrest]
    exact hplace

theorem EndsIn.pathExists_iff (hshort : name.length ≤ maxNameLength)
    (hlength : (directory.join name).length ≤ path.length)
    (hlast : path.steps.getLast? = some .stay →
      ∃ same, files.isDirectory same = true ∧ Path.SameAs same path) :
    files.pathExists path = true ↔
      path.length ≤ maxPathLength ∧
        ((∃ target, entry = .link target) → files.pathExists (directory.join name) = true) ∧
        (0 < rises → files.isDirectory (directory.join name) = true) := by
  rw [pathExists_iff_exists_locate, pathExists_iff_exists_locate,
    isDirectory_iff_exists_locate]
  constructor
  · rintro ⟨place, hplace⟩
    obtain ⟨_, hle, _⟩ := locate_eq_ok hplace
    obtain ⟨middle, hmiddle, hrises⟩ := h.exists_reaches_of_reaches hname (reaches_of_locate hplace)
    have hlocate := locate_join_name hname (Nat.le_trans hlength hle) hmiddle
    exact ⟨hle, fun _ => ⟨middle, hlocate⟩, fun hpos => ⟨middle, hlocate, hrises hpos⟩⟩
  · rintro ⟨hle, hlink, hrises⟩
    obtain ⟨middle, hmiddle⟩ := h.exists_reaches hname hshort hlink
    have hdirectory : 0 < rises → ∃ entries, files.node? middle = some (.directory entries) := by
      intro hpos
      obtain ⟨other, hother, hentries⟩ := hrises hpos
      rwa [(reaches_of_locate hother).unique hmiddle] at hentries
    obtain ⟨place, hplace⟩ := h.exists_reaches_of_rises hname hmiddle hdirectory
    refine ⟨place, locate_of_reaches ?_ hle ?_ hplace⟩
    · rintro rfl
      have hnil : Path.moves [] = [] := rfl
      have := h.moves_eq
      simp [hnil] at this
    · -- A path that ends by staying asks for a directory, and another path leads there.
      intro hstay
      obtain ⟨same, hsame, hmoves⟩ := hlast hstay
      obtain ⟨other, hother, hentries⟩ := isDirectory_iff_exists_locate.1 hsame
      rwa [((reaches_of_locate hother).of_sameAs hmoves).unique hplace] at hentries

end rises

end endsIn

end FileSystem

end Preflight
