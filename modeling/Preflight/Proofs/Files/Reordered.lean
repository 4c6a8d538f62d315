import Mathlib.Data.List.Nodup
import Preflight.Proofs.Files.FileSystem

/-!
This module contains that paths lead to the same in file systems whose directories list the same
entries in another order.
-/

namespace Preflight

inductive FileNode.Reordered : FileNode → FileNode → Prop
  | file (executable : Bool) (content : Content) :
    Reordered (.file executable content) (.file executable content)
  | link (target : Path) : Reordered (.link target) (.link target)
  | directory {entries entries' : List (Name × FileNode)}
    (names : (entries.map Prod.fst).Perm (entries'.map Prod.fst))
    (nodes : ∀ name node node', entries.lookup name = some node →
      entries'.lookup name = some node' → Reordered node node') :
    Reordered (.directory entries) (.directory entries')

structure FileSystem.Reordered (files files' : FileSystem) : Prop where
  root : (FileNode.directory files.root).Reordered (.directory files'.root)
  workingDirectory : files'.workingDirectory = files.workingDirectory

namespace FileNode

namespace Reordered

variable {node node' : FileNode} {entries entries' : List (Name × FileNode)}

theorem refl (node : FileNode) : node.Reordered node := by
  match node with
  | .file executable content => exact file executable content
  | .link target => exact link target
  | .directory entries =>
    apply directory (.refl _)
    intro name node node' hnode hnode'
    rw [hnode, Option.some.injEq] at hnode'
    have := List.sizeOf_lt_of_mem (mem_of_lookup_eq_some hnode)
    rw [← hnode']
    exact refl node
termination_by sizeOf node
decreasing_by
  simp only [Prod.mk.sizeOf_spec, directory.sizeOf_spec] at *
  omega

theorem of_perm (h : entries.Perm entries') (hnodup : (entries.map Prod.fst).Nodup) :
    (FileNode.directory entries).Reordered (.directory entries') := by
  apply directory (h.map Prod.fst)
  intro name node node' hnode hnode'
  have hmem := mem_of_lookup_eq_some hnode
  have hmem' := h.mem_iff.2 (mem_of_lookup_eq_some hnode')
  obtain ⟨-, rfl⟩ := Prod.ext_iff.1 (List.inj_on_of_nodup_map hnodup hmem hmem' rfl)
  exact refl node

theorem symm (h : node.Reordered node') : node'.Reordered node := by
  induction h with
  | file executable content => exact file executable content
  | link target => exact link target
  | directory names nodes ih =>
    apply directory names.symm
    intro name node node' hnode hnode'
    exact ih name node' node hnode' hnode

theorem rel_lookup (h : (FileNode.directory entries).Reordered (.directory entries'))
    (name : Name) : Option.Rel Reordered (entries.lookup name) (entries'.lookup name) := by
  cases h with
  | directory names nodes =>
    have hsome : (entries.lookup name).isSome = true ↔ (entries'.lookup name).isSome = true := by
      rw [lookup_isSome_iff, lookup_isSome_iff, names.mem_iff]
    cases hnode : entries.lookup name with
    | none =>
      rw [hnode] at hsome
      rw [Option.not_isSome_iff_eq_none.1 (mt hsome.2 Bool.false_ne_true)]
      exact .none
    | some node =>
      rw [hnode] at hsome
      obtain ⟨node', hnode'⟩ := Option.isSome_iff_exists.1 (hsome.1 rfl)
      rw [hnode']
      exact .some (nodes name node node' hnode hnode')

theorem exists_lookup (h : (FileNode.directory entries).Reordered (.directory entries'))
    {name : Name} (hlookup : entries.lookup name = some node) :
    ∃ node', entries'.lookup name = some node' ∧ node.Reordered node' := by
  have hrel := h.rel_lookup name
  rw [hlookup] at hrel
  generalize entries'.lookup name = node? at hrel
  cases hrel with
  | some hnode => exact ⟨_, rfl, hnode⟩

theorem lookup_eq_link (h : (FileNode.directory entries).Reordered (.directory entries'))
    {name : Name} {target : Path} (hlookup : entries.lookup name = some (.link target)) :
    entries'.lookup name = some (.link target) := by
  obtain ⟨node', hnode', hnode⟩ := h.exists_lookup hlookup
  cases hnode
  exact hnode'

theorem lookup_eq_none (h : (FileNode.directory entries).Reordered (.directory entries'))
    {name : Name} (hlookup : entries.lookup name = none) : entries'.lookup name = none := by
  have hrel := h.rel_lookup name
  rw [hlookup] at hrel
  generalize entries'.lookup name = node? at hrel
  cases hrel
  rfl

theorem rel_find? (h : node.Reordered node') (place : Place) :
    Option.Rel Reordered (node.find? place) (node'.find? place) := by
  induction place generalizing node node' with
  | nil => exact .some h
  | cons name place ih =>
    cases h with
    | file executable content => exact .none
    | link target => exact .none
    | @directory entries entries' names nodes =>
      rw [find?_directory_cons, find?_directory_cons]
      have hrel := rel_lookup (.directory names nodes) name
      generalize entries.lookup name = node?, entries'.lookup name = node?' at hrel ⊢
      cases hrel with
      | none => exact .none
      | some hnode => exact ih hnode

end Reordered

end FileNode

namespace FileSystem

namespace Reordered

variable {files files' : FileSystem}

theorem symm (h : files.Reordered files') : files'.Reordered files :=
  ⟨h.root.symm, h.workingDirectory.symm⟩

theorem rel_node? (h : files.Reordered files') (place : Place) :
    Option.Rel FileNode.Reordered (files.node? place) (files'.node? place) :=
  h.root.rel_find? place

theorem exists_directory (h : files.Reordered files') {place : Place}
    {entries : List (Name × FileNode)} (hplace : files.node? place = some (.directory entries)) :
    ∃ entries', files'.node? place = some (.directory entries') ∧
      (FileNode.directory entries).Reordered (.directory entries') := by
  have hrel := h.rel_node? place
  rw [hplace] at hrel
  generalize hplace' : files'.node? place = node? at hrel
  cases hrel with
  | some hnode =>
    cases hnode with
    | directory names nodes => exact ⟨_, rfl, .directory names nodes⟩

theorem follow_eq (h : files.Reordered files') (links : Nat) (place : Place) (steps : List Step) :
    files'.follow links place steps = files.follow links place steps := by
  fun_induction follow files links place steps with
  | case1 links place => exact follow_nil links place
  | case2 links place steps entries hplace ih =>
    obtain ⟨entries', hplace', _⟩ := h.exists_directory hplace
    rw [follow_stay hplace', ih]
  | case3 links place steps entries hplace ih =>
    obtain ⟨entries', hplace', _⟩ := h.exists_directory hplace
    rw [follow_parent hplace', ih]
  | case4 links place steps entries hplace name hlong =>
    obtain ⟨entries', hplace', _⟩ := h.exists_directory hplace
    rw [follow_child hplace', if_pos hlong]
  | case5 links place steps entries hplace name hshort hlookup =>
    obtain ⟨entries', hplace', hentries⟩ := h.exists_directory hplace
    rw [follow_child hplace', if_neg hshort, hentries.lookup_eq_none hlookup]
  | case6 place steps entries hplace name hshort target hlookup =>
    obtain ⟨entries', hplace', hentries⟩ := h.exists_directory hplace
    rw [follow_child hplace', if_neg hshort, hentries.lookup_eq_link hlookup]
  | case7 place steps entries hplace name hshort links hlookup =>
    obtain ⟨entries', hplace', hentries⟩ := h.exists_directory hplace
    rw [follow_child hplace', if_neg hshort, hentries.lookup_eq_link hlookup]
    rfl
  | case8 place steps entries hplace name hshort target hlookup links hne start ih =>
    obtain ⟨entries', hplace', hentries⟩ := h.exists_directory hplace
    rw [follow_child hplace', if_neg hshort, hentries.lookup_eq_link hlookup]
    exact (if_neg hne).trans ih
  | case9 links place steps entries hplace name hshort node hlink hlookup ih =>
    obtain ⟨entries', hplace', hentries⟩ := h.exists_directory hplace
    obtain ⟨node', hlookup', hnode⟩ := hentries.exists_lookup hlookup
    rw [follow_child hplace', if_neg hshort, hlookup']
    cases hnode with
    | file executable content => exact ih
    | link target => exact absurd rfl (hlink target)
    | directory names nodes => exact ih
  | case10 links place step steps hplace =>
    apply follow_cons_of_not_directory
    rintro ⟨entries', hplace'⟩
    obtain ⟨entries, hentries, _⟩ := h.symm.exists_directory hplace'
    exact hplace entries hentries

section path

variable {path : Path}

theorem locate_eq (h : files.Reordered files') (path : Path) :
    files'.locate path = files.locate path := by
  unfold locate
  rw [h.workingDirectory, h.follow_eq]
  simp only [h.follow_eq]

theorem canonical_eq (h : files.Reordered files') (path : Path) :
    files'.canonical path = files.canonical path := by
  unfold canonical
  rw [h.locate_eq]

theorem exists_stat (h : files.Reordered files') {node : FileNode}
    (hstat : files.stat path = .ok node) :
    ∃ node', files'.stat path = .ok node' ∧ node.Reordered node' := by
  obtain ⟨place, hplace, hnode⟩ := stat_eq_ok_iff.1 hstat
  have hrel := h.rel_node? place
  rw [hnode] at hrel
  generalize hnode' : files'.node? place = node? at hrel
  cases hrel with
  | some hreordered =>
    exact ⟨_, stat_eq_ok_iff.2 ⟨place, (h.locate_eq path).trans hplace, hnode'⟩, hreordered⟩

theorem stat_file_iff (h : files.Reordered files') {executable : Bool} {content : Content} :
    files'.stat path = .ok (.file executable content) ↔
      files.stat path = .ok (.file executable content) := by
  constructor
  · intro hstat
    obtain ⟨node, hstat, hnode⟩ := h.symm.exists_stat hstat
    cases hnode
    exact hstat
  · intro hstat
    obtain ⟨node, hstat, hnode⟩ := h.exists_stat hstat
    cases hnode
    exact hstat

theorem isDirectory_eq (h : files.Reordered files') (path : Path) :
    files'.isDirectory path = files.isDirectory path := by
  rw [Bool.eq_iff_iff, isDirectory_iff, isDirectory_iff]
  constructor
  · rintro ⟨entries', hstat'⟩
    obtain ⟨node, hstat, hnode⟩ := h.symm.exists_stat hstat'
    cases hnode
    exact ⟨_, hstat⟩
  · rintro ⟨entries, hstat⟩
    obtain ⟨node', hstat', hnode⟩ := h.exists_stat hstat
    cases hnode
    exact ⟨_, hstat'⟩

theorem exists_list (h : files.Reordered files') {names : List Name}
    (hlist : files.list path = .ok names) :
    ∃ names', files'.list path = .ok names' ∧ names.Perm names' := by
  obtain ⟨entries, hstat, rfl⟩ := list_eq_ok_iff.1 hlist
  obtain ⟨node', hstat', hnode⟩ := h.exists_stat hstat
  cases hnode with
  | directory names nodes => exact ⟨_, list_eq_ok_iff.2 ⟨_, hstat', rfl⟩, names⟩

end path

end Reordered

end FileSystem

end Preflight
