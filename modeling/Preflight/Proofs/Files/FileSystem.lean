import Preflight.Files.FileSystem
import Preflight.Proofs.Files.Path

/-!
This module contains where paths lead: which places can be reached, and which changes to a path do
not matter.
-/

namespace Preflight

section except

variable {ε α β : Type} {x : Except ε α} {result : β}

theorem exists_of_bind_eq_ok {f : α → Except ε β} (h : x >>= f = .ok result) :
    ∃ a, x = .ok a ∧ f a = .ok result := by
  cases x with
  | error error => contradiction
  | ok a => exact ⟨a, rfl, h⟩

theorem exists_of_map_eq_ok {f : α → β} (h : f <$> x = .ok result) :
    ∃ a, x = .ok a ∧ result = f a := by
  cases x with
  | error error => contradiction
  | ok a => exact ⟨a, rfl, (Except.ok.inj h).symm⟩

end except

theorem mem_of_lookup_eq_some {α β : Type} [BEq α] [LawfulBEq α] {entries : List (α × β)} {key : α}
    {value : β} (h : entries.lookup key = some value) : (key, value) ∈ entries := by
  obtain ⟨front, back, heq, _⟩ := List.lookup_eq_some_iff.1 h
  simp [heq]

namespace FileNode

theorem lookup_isSome_iff {entries : List (Name × FileNode)} {name : Name} :
    (entries.lookup name).isSome = true ↔ name ∈ entries.map Prod.fst := by
  rw [Option.isSome_iff_ne_none, ne_eq, List.lookup_eq_none_iff]
  simp

theorem find?_directory_cons (entries : List (Name × FileNode)) (name : Name) (names : Place) :
    (directory entries).find? (name :: names) =
      (entries.lookup name).bind fun node => node.find? names := by
  rw [find?]
  cases entries.lookup name <;> rfl

theorem find?_append (node : FileNode) (front back : Place) :
    node.find? (front ++ back) = (node.find? front).bind fun node => node.find? back := by
  induction front generalizing node with
  | nil => rfl
  | cons name front ih =>
    cases node with
    | directory entries =>
      rw [List.cons_append, find?_directory_cons, find?_directory_cons]
      cases entries.lookup name with
      | some node => exact ih node
      | none => rfl
    | file executable content => rfl
    | link target => rfl

theorem forall_names_directory {p : Name → Prop} {entries : List (Name × FileNode)}
    (hnames : ∀ entry ∈ entries, p entry.1)
    (hbelow : ∀ node ∈ entries.map Prod.snd, ∀ place below,
      node.find? place = some (.directory below) → ∀ entry ∈ below, p entry.1) :
    ∀ place below, (directory entries).find? place = some (.directory below) →
      ∀ entry ∈ below, p entry.1 := by
  intro place below h
  cases place with
  | nil =>
    cases h
    exact hnames
  | cons name place =>
    rw [find?_directory_cons] at h
    obtain ⟨node, hnode, hplace⟩ := Option.bind_eq_some_iff.1 h
    exact hbelow node (List.mem_map_of_mem (mem_of_lookup_eq_some hnode)) place below hplace

theorem forall_names_of_not_directory {p : Name → Prop} {node : FileNode}
    (h : ∀ entries, node ≠ .directory entries) :
    ∀ place below, node.find? place = some (.directory below) → ∀ entry ∈ below, p entry.1 := by
  intro place below hplace
  cases node with
  | directory entries => exact absurd rfl (h entries)
  | file executable content => cases place <;> cases hplace
  | link target => cases place <;> cases hplace

end FileNode

namespace FileSystem

variable {files : FileSystem}

def HasProperNames (files : FileSystem) : Prop :=
  ∀ place entries, files.node? place = some (.directory entries) →
    ∀ entry ∈ entries, Name.IsProper entry.1

def Settled (files : FileSystem) (place : Place) : Prop :=
  ∃ node, files.node? place = some node ∧ ∀ target, node ≠ .link target

section node?

variable {place : Place} {entries : List (Name × FileNode)}

theorem node?_append_singleton (h : files.node? place = some (.directory entries)) (name : Name) :
    files.node? (place ++ [name]) = entries.lookup name := by
  unfold node? at h ⊢
  rw [FileNode.find?_append, h, Option.bind_some, FileNode.find?_directory_cons]
  cases entries.lookup name <;> rfl

theorem exists_directory_of_node?_append {node : FileNode} {back : Place} (hne : back ≠ [])
    (h : files.node? (place ++ back) = some node) :
    ∃ entries, files.node? place = some (.directory entries) := by
  unfold node? at h ⊢
  rw [FileNode.find?_append] at h
  obtain ⟨name, back, rfl⟩ := List.exists_cons_of_ne_nil hne
  cases hplace : (FileNode.directory files.root).find? place with
  | none =>
    rw [hplace] at h
    contradiction
  | some node =>
    rw [hplace] at h
    cases node with
    | directory entries => exact ⟨entries, rfl⟩
    | file executable content => contradiction
    | link target => contradiction

theorem settled_of_directory (h : files.node? place = some (.directory entries)) :
    files.Settled place :=
  ⟨.directory entries, h, fun _ => FileNode.noConfusion⟩

theorem Settled.of_append {back : Place} (h : files.Settled (place ++ back)) :
    files.Settled place := by
  by_cases hne : back = []
  · rwa [hne, List.append_nil] at h
  · obtain ⟨node, hnode, _⟩ := h
    obtain ⟨entries, hplace⟩ := exists_directory_of_node?_append hne hnode
    exact settled_of_directory hplace

theorem exists_directory_dropLast (h : files.node? place = some (.directory entries)) :
    ∃ above, files.node? place.dropLast = some (.directory above) := by
  by_cases hne : place = []
  · rw [hne] at h ⊢
    exact ⟨entries, h⟩
  · rw [← List.dropLast_concat_getLast hne] at h
    exact exists_directory_of_node?_append (by simp) h

theorem settled_dropLast (h : files.node? place = some (.directory entries)) :
    files.Settled place.dropLast := by
  obtain ⟨above, habove⟩ := exists_directory_dropLast h
  exact settled_of_directory habove

theorem isProper_of_mem {node : FileNode} (hproper : files.HasProperNames)
    (h : files.node? place = some node) {name : Name} (hname : name ∈ place) :
    Name.IsProper name := by
  obtain ⟨front, back, rfl⟩ := List.append_of_mem hname
  obtain ⟨entries, hfront⟩ := exists_directory_of_node?_append (by simp) h
  rw [← List.singleton_append, ← List.append_assoc] at h
  unfold node? at h
  rw [FileNode.find?_append] at h
  obtain ⟨below, hbelow, _⟩ := Option.bind_eq_some_iff.1 h
  have hlookup := node?_append_singleton hfront name
  unfold node? at hlookup
  rw [hbelow] at hlookup
  exact hproper front _ hfront (name, below) (mem_of_lookup_eq_some hlookup.symm)

end node?

section follow

variable {links : Nat} {place result : Place} {entries : List (Name × FileNode)}

theorem follow_nil (links : Nat) (place : Place) : files.follow links place [] = .ok place := by
  rw [follow]

theorem follow_cons_of_not_directory
    (h : ¬∃ entries, files.node? place = some (.directory entries)) (step : Step)
    (steps : List Step) : files.follow links place (step :: steps) = .error .notDirectory := by
  rw [follow]
  split
  · next entries hplace => exact absurd ⟨entries, hplace⟩ h
  · rfl

theorem follow_stay (hplace : files.node? place = some (.directory entries))
    (steps : List Step) :
    files.follow links place (.stay :: steps) = files.follow links place steps := by
  rw [follow, hplace]

theorem follow_parent (hplace : files.node? place = some (.directory entries))
    (steps : List Step) :
    files.follow links place (.parent :: steps) = files.follow links place.dropLast steps := by
  rw [follow, hplace]

theorem follow_child (hplace : files.node? place = some (.directory entries)) (name : Name)
    (steps : List Step) :
    files.follow links place (.child name :: steps) =
      if maxNameLength < name.length then .error .nameTooLong
      else
        match entries.lookup name, links with
        | none, _ => .error .missing
        | some (.link _), 0 => .error .tooManyLinks
        | some (.link target), links + 1 =>
          if target = [] then .error .missing
          else
            files.follow links (if target.isAbsolute then [] else place) (target.steps ++ steps)
        | some _, links => files.follow links (place ++ [name]) steps := by
  rw [follow, hplace]
  dsimp only
  split
  · rfl
  · cases entries.lookup name with
    | none => rfl
    | some node =>
      cases node with
      | link target => cases links <;> rfl
      | file executable content => rfl
      | directory entries => rfl

theorem follow_child_of_lookup (hplace : files.node? place = some (.directory entries)) {name : Name}
    (hname : name.length ≤ maxNameLength) {node : FileNode} (hnode : entries.lookup name = some node)
    (hlink : ∀ target, node ≠ .link target) (steps : List Step) :
    files.follow links place (.child name :: steps) =
      files.follow links (place ++ [name]) steps := by
  rw [follow_child hplace, if_neg (Nat.not_lt_of_le hname), hnode]
  cases node with
  | link target => exact absurd rfl (hlink target)
  | file executable content => rfl
  | directory entries => rfl

theorem settled_of_follow {steps : List Step} (h : files.follow links place steps = .ok result)
    (hstart : steps ≠ [] ∨ files.Settled place) : files.Settled result := by
  fun_induction follow files links place steps with
  | case1 links place =>
    cases h
    exact hstart.resolve_left (by simp)
  | case2 links place steps entries hplace ih =>
    exact ih h (.inr (settled_of_directory hplace))
  | case3 links place steps entries hplace ih =>
    exact ih h (.inr (settled_dropLast hplace))
  | case8 place steps entries hplace name hshort target hlookup links' hne start ih =>
    exact ih h (.inl (List.append_ne_nil_of_left_ne_nil (Path.steps_ne_nil target) steps))
  | case9 links place steps entries hplace name hshort node hlink hlookup ih =>
    apply ih h
    right
    refine ⟨node, ?_, hlink⟩
    rw [node?_append_singleton hplace, hlookup]
  | case4 => contradiction
  | case5 => contradiction
  | case6 => contradiction
  | case7 => contradiction
  | case10 => contradiction

theorem eq_of_follow_child {done rest : Place} (hsettled : files.Settled (done ++ rest))
    (h : files.follow links done (rest.map .child) = .ok result) : result = done ++ rest := by
  induction rest generalizing done with
  | nil =>
    rw [List.map_nil, follow_nil] at h
    cases h
    exact (List.append_nil _).symm
  | cons name rest ih =>
    have hassoc : done ++ name :: rest = done ++ [name] ++ rest := by simp
    obtain ⟨node, hnode, hlink⟩ := hsettled
    obtain ⟨entries, hdone⟩ := exists_directory_of_node?_append (by simp) hnode
    rw [hassoc] at hnode ⊢
    have hname := node?_append_singleton hdone name
    rw [List.map_cons, follow_child hdone] at h
    split at h
    · contradiction
    · split at h
      · contradiction
      · contradiction
      · next target links' hlookup =>
        -- A link on the way would have nothing below it, and one at the end is not settled.
        exfalso
        rw [hlookup] at hname
        by_cases hrest : rest = []
        · rw [hrest, List.append_nil, hname] at hnode
          cases hnode
          exact hlink target rfl
        · obtain ⟨below, hbelow⟩ := exists_directory_of_node?_append hrest hnode
          rw [hname] at hbelow
          cases hbelow
      · exact ih ⟨node, hnode, hlink⟩ h

theorem follow_map_child {done rest : Place} (hsettled : files.Settled (done ++ rest))
    (hrest : ∀ name ∈ rest, name.length ≤ maxNameLength) :
    files.follow links done (rest.map .child) = .ok (done ++ rest) := by
  induction rest generalizing done with
  | nil => rw [List.map_nil, follow_nil, List.append_nil]
  | cons name rest ih =>
    have hassoc : done ++ name :: rest = done ++ [name] ++ rest := by simp
    rw [List.forall_mem_cons] at hrest
    have ⟨node, hnode, _⟩ := hsettled
    obtain ⟨entries, hdone⟩ := exists_directory_of_node?_append (by simp) hnode
    rw [hassoc] at hsettled ⊢
    obtain ⟨below, hbelow, hlink⟩ := hsettled.of_append
    rw [node?_append_singleton hdone] at hbelow
    rw [List.map_cons, follow_child_of_lookup hdone hrest.1 hbelow hlink]
    exact ih hsettled hrest.2

theorem follow_append_stay (front : List Step) {rest : List Step} (hrest : rest ≠ []) :
    files.follow links place (front ++ .stay :: rest) =
      files.follow links place (front ++ rest) := by
  -- The induction is on the links first, because the target of a link can be longer than its name.
  induction links using Nat.strongRecOn generalizing place front with
  | ind links ihLinks =>
    induction front generalizing place with
    | nil =>
      by_cases hplace : ∃ entries, files.node? place = some (.directory entries)
      · obtain ⟨entries, hplace⟩ := hplace
        exact follow_stay hplace rest
      · obtain ⟨step, rest, rfl⟩ := List.exists_cons_of_ne_nil hrest
        rw [List.nil_append, List.nil_append]
        rw [follow_cons_of_not_directory hplace, follow_cons_of_not_directory hplace]
    | cons step front ih =>
      rw [List.cons_append, List.cons_append]
      by_cases hplace : ∃ entries, files.node? place = some (.directory entries)
      · obtain ⟨entries, hplace⟩ := hplace
        cases step with
        | stay => rw [follow_stay hplace, follow_stay hplace, ih]
        | parent => rw [follow_parent hplace, follow_parent hplace, ih]
        | child name =>
          rw [follow_child hplace, follow_child hplace]
          split
          · rfl
          · split
            · rfl
            · rfl
            · -- What follows a link starts with the steps of its target, and a link is used up.
              next links _ =>
              rw [← List.append_assoc, ← List.append_assoc, ihLinks links (Nat.lt_succ_self links)]
            · exact ih
      · rw [follow_cons_of_not_directory hplace, follow_cons_of_not_directory hplace]

theorem follow_append_of_forall_stay {front rest : List Step} (hrest : rest ≠ [])
    (hfront : ∀ step ∈ front, step = .stay) :
    files.follow links place (front ++ rest) = files.follow links place rest := by
  induction front with
  | nil => rfl
  | cons step front ih =>
    have hstay := hfront step List.mem_cons_self
    have htail := ih fun s hs => hfront s (List.mem_cons_of_mem step hs)
    have hne := List.append_ne_nil_of_right_ne_nil front hrest
    rw [hstay, ← htail]
    exact follow_append_stay [] hne

end follow

section locate

variable {path : Path} {place : Place} {node : FileNode}

theorem locate_eq_ok (h : files.locate path = .ok place) :
    path ≠ [] ∧ path.length ≤ maxPathLength ∧
      ∃ start, (if path.isAbsolute then some [] else files.workingDirectory) = some start ∧
        files.follow maxLinks start path.steps = .ok place := by
  unfold locate at h
  split at h
  · contradiction
  · next hne =>
    split at h
    · contradiction
    · next hlength =>
      refine ⟨hne, Nat.le_of_not_lt hlength, ?_⟩
      split at h
      · next habsolute => exact ⟨[], if_pos habsolute, h⟩
      · next habsolute =>
        rw [if_neg habsolute]
        split at h
        · next start hstart => exact ⟨start, hstart, h⟩
        · contradiction

theorem locate_of_follow {start : Place} (hne : path ≠ []) (hlength : path.length ≤ maxPathLength)
    (hstart : (if path.isAbsolute then some [] else files.workingDirectory) = some start)
    (h : files.follow maxLinks start path.steps = .ok place) : files.locate path = .ok place := by
  unfold locate
  rw [if_neg hne, if_neg (Nat.not_lt_of_le hlength)]
  split
  · next habsolute =>
    rw [if_pos habsolute, Option.some.injEq] at hstart
    rw [hstart, h]
  · next habsolute =>
    rw [if_neg habsolute] at hstart
    rw [hstart]
    exact h

theorem locate_of_settled (hne : path ≠ []) (hlength : path.length ≤ maxPathLength)
    (habsolute : path.isAbsolute = true) (hsteps : path.steps = place.map .child)
    (hsettled : files.Settled place) (hplace : ∀ name ∈ place, name.length ≤ maxNameLength) :
    files.locate path = .ok place := by
  apply locate_of_follow hne hlength (if_pos habsolute)
  rw [hsteps]
  exact follow_map_child hsettled hplace

theorem stat_eq_ok_iff :
    files.stat path = .ok node ↔
      ∃ place, files.locate path = .ok place ∧ files.node? place = some node := by
  unfold stat
  constructor
  · intro h
    obtain ⟨place, hplace, hnode⟩ := exists_of_bind_eq_ok h
    refine ⟨place, hplace, ?_⟩
    split at hnode
    · next other hother =>
      rw [hother, Except.ok.inj hnode]
    · contradiction
  · rintro ⟨place, hplace, hnode⟩
    rw [hplace]
    simp only [bind, Except.bind, hnode]

theorem stat_of_node? (hne : path ≠ []) (hlength : path.length ≤ maxPathLength)
    (habsolute : path.isAbsolute = true) (hsteps : path.steps = place.map .child)
    (hplace : ∀ name ∈ place, name.length ≤ maxNameLength) (hnode : files.node? place = some node)
    (hlink : ∀ target, node ≠ .link target) : files.stat path = .ok node :=
  stat_eq_ok_iff.2
    ⟨place, locate_of_settled hne hlength habsolute hsteps ⟨node, hnode, hlink⟩ hplace, hnode⟩

theorem exists_canonical_of_stat (h : files.stat path = .ok node) :
    ∃ real, files.canonical path = .ok real := by
  obtain ⟨place, hplace, _⟩ := stat_eq_ok_iff.1 h
  unfold canonical
  rw [hplace]
  exact ⟨pathOf place, rfl⟩

theorem stat_slash (files : FileSystem) : files.stat [Path.slash] = .ok (.directory files.root) := by
  refine stat_eq_ok_iff.2 ⟨[], ?_, rfl⟩
  apply locate_of_follow (by simp) (by simp [maxPathLength]) rfl
  have hsteps : Path.steps [Path.slash] = [.stay] := rfl
  rw [hsteps, follow_stay rfl, follow_nil]

theorem exists_stat_of_isFile (h : files.isFile path = true) :
    ∃ executable content, files.stat path = .ok (.file executable content) := by
  unfold isFile at h
  cases hstat : files.stat path with
  | error error =>
    rw [hstat] at h
    contradiction
  | ok node =>
    rw [hstat] at h
    cases node with
    | file executable content => exact ⟨executable, content, rfl⟩
    | link target => contradiction
    | directory entries => contradiction

section stat

variable {executable : Bool} {content : Content}

theorem isFile_of_stat (h : files.stat path = .ok (.file executable content)) :
    files.isFile path = true := by
  unfold isFile
  rw [h]
  rfl

theorem isExecutable_of_stat (h : files.stat path = .ok (.file executable content)) :
    files.isExecutable path = executable := by
  unfold isExecutable
  rw [h]
  rfl

end stat

theorem isExecutable_iff :
    files.isExecutable path = true ↔ ∃ content, files.stat path = .ok (.file true content) := by
  constructor
  · intro h
    unfold isExecutable at h
    split at h
    · next node hstat =>
      cases node with
      | file executable content =>
        obtain rfl : executable = true := h
        exact ⟨content, hstat⟩
      | link target => contradiction
      | directory entries => contradiction
    · contradiction
  · rintro ⟨content, hstat⟩
    exact isExecutable_of_stat hstat

theorem isDirectory_iff :
    files.isDirectory path = true ↔ ∃ entries, files.stat path = .ok (.directory entries) := by
  unfold isDirectory
  constructor
  · intro h
    split at h
    · next node hstat =>
      cases node with
      | file executable content => contradiction
      | link target => contradiction
      | directory entries => exact ⟨entries, hstat⟩
    · contradiction
  · rintro ⟨entries, hstat⟩
    rw [hstat]
    rfl

theorem list_eq_ok_iff {names : List Name} :
    files.list path = .ok names ↔
      ∃ entries, files.stat path = .ok (.directory entries) ∧ names = entries.map Prod.fst := by
  unfold list
  constructor
  · intro h
    obtain ⟨node, hstat, hnames⟩ := exists_of_bind_eq_ok h
    cases node with
    | file executable content => contradiction
    | link target => contradiction
    | directory entries => exact ⟨entries, hstat, (Except.ok.inj hnames).symm⟩
  · rintro ⟨entries, hstat, rfl⟩
    rw [hstat]
    rfl

theorem forall_mem_list {p : Name → Prop} {names : List Name}
    (h : ∀ place entries, files.node? place = some (.directory entries) →
      ∀ entry ∈ entries, p entry.1)
    (hlist : files.list path = .ok names) : ∀ name ∈ names, p name := by
  obtain ⟨entries, hstat, rfl⟩ := list_eq_ok_iff.1 hlist
  obtain ⟨place, _, hplace⟩ := stat_eq_ok_iff.1 hstat
  intro name hname
  obtain ⟨entry, hentry, rfl⟩ := List.mem_map.1 hname
  exact h place entries hplace entry hentry

theorem settled_of_locate (h : files.locate path = .ok place) : files.Settled place := by
  obtain ⟨_, _, start, _, hfollow⟩ := locate_eq_ok h
  exact settled_of_follow hfollow (.inl (Path.steps_ne_nil path))

theorem steps_pathOf (hne : place ≠ []) (hproper : ∀ name ∈ place, Name.IsProper name) :
    (pathOf place).steps = place.map .child := by
  have hmoves : ∀ move ∈ place.map Step.child, move.IsMove := by
    intro move hmove
    obtain ⟨name, hname, rfl⟩ := List.mem_map.1 hmove
    exact hproper name hname
  have hsteps := Path.steps_append_cons [] (Path.ofMoves (place.map .child))
  rw [List.nil_append, Path.steps_ofMoves (by simpa using hne) hmoves] at hsteps
  exact hsteps

theorem eq_of_locate_pathOf {result : Place} (hproper : files.HasProperNames)
    (hsettled : files.Settled place) (h : files.locate (pathOf place) = .ok result) :
    result = place := by
  obtain ⟨_, _, start, hstart, hfollow⟩ := locate_eq_ok h
  have habsolute : (pathOf place).isAbsolute = true := rfl
  rw [if_pos habsolute, Option.some.injEq] at hstart
  subst hstart
  by_cases hne : place = []
  · subst hne
    have hroot : files.node? [] = some (.directory files.root) := rfl
    have hsteps : (pathOf []).steps = [.stay] := rfl
    rw [hsteps, follow_stay hroot, follow_nil] at hfollow
    cases hfollow
    rfl
  · obtain ⟨node, hnode, _⟩ := hsettled
    rw [steps_pathOf hne fun _ => isProper_of_mem hproper hnode] at hfollow
    exact eq_of_follow_child (by simpa using ⟨node, hnode, ‹_›⟩) hfollow

theorem stat_of_stat_canonical {real : Path} (hproper : files.HasProperNames)
    (hreal : files.canonical path = .ok real) (h : files.stat real = .ok node) :
    files.stat path = .ok node := by
  unfold canonical at hreal
  obtain ⟨place, hlocate, rfl⟩ := exists_of_map_eq_ok hreal
  obtain ⟨result, hresult, hnode⟩ := stat_eq_ok_iff.1 h
  rw [eq_of_locate_pathOf hproper (settled_of_locate hlocate) hresult] at hnode
  exact stat_eq_ok_iff.2 ⟨place, hlocate, hnode⟩

theorem locate_join_here {base : Path}
    (hbase : path.isAbsolute = true → base.isAbsolute = true ∧ base.moves = [])
    (hlength : (base.join (Path.here path)).length ≤ maxPathLength)
    (h : files.locate (base.join path) = .ok place) :
    files.locate (base.join (Path.here path)) = .ok place := by
  obtain ⟨_, _, start, hstart, hfollow⟩ := locate_eq_ok h
  have hhere : Path.isAbsolute (Path.here path) = false := rfl
  have hne := Path.steps_ne_nil path
  have hstay : ∀ front : List Step, files.follow maxLinks start (front ++ .stay :: path.steps) =
      files.follow maxLinks start (front ++ path.steps) := fun front => follow_append_stay front hne
  have hsame : (base.join (Path.here path)).isAbsolute = (base.join path).isAbsolute ∧
      files.follow maxLinks start (base.join (Path.here path)).steps = .ok place := by
    rw [Path.isAbsolute_join hhere, Path.steps_join hhere, Path.steps_here, hstay]
    cases habsolute : path.isAbsolute with
    | false =>
      rw [Path.steps_join habsolute] at hfollow
      exact ⟨(Path.isAbsolute_join habsolute).symm, hfollow⟩
    | true =>
      -- The base is the root then, and nothing but staying comes before the path.
      obtain ⟨hroot, hmoves⟩ := hbase habsolute
      rw [Path.join_of_isAbsolute habsolute] at hfollow ⊢
      refine ⟨hroot.trans habsolute.symm, ?_⟩
      rw [Path.moves_eq_filterMap, ← Path.filter_filterMap_ofInner?] at hmoves
      rw [follow_append_of_forall_stay hne]
      · exact hfollow
      · simpa using List.filter_eq_nil_iff.1 hmoves
  apply locate_of_follow
  · exact Path.join_here_ne_nil base path
  · exact hlength
  · rw [hsame.1]
    exact hstart
  · exact hsame.2

end locate

end FileSystem

end Preflight
