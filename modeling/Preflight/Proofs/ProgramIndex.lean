import Preflight.ProgramIndex

/-!
This module contains what can be said about the programs of an index and those that are suggested
from it.
-/

namespace Preflight

namespace Candidate

theorem closer_eq_or (a b : Candidate) : closer a b = a ∨ closer a b = b := by
  unfold closer
  split
  · exact .inr rfl
  · exact .inl rfl

theorem foldl_closer_mem (first : Candidate) (others : List Candidate) :
    others.foldl closer first ∈ first :: others := by
  induction others generalizing first with
  | nil => exact List.mem_singleton.2 rfl
  | cons next others ih =>
    have hmem := ih (closer first next)
    rw [List.mem_cons] at hmem
    rw [List.foldl_cons, List.mem_cons, List.mem_cons]
    rcases hmem with heq | hmem
    · rw [heq]
      rcases closer_eq_or first next with h | h
      · exact .inl h
      · exact .inr (.inl h)
    · exact .inr (.inr hmem)

end Candidate

namespace ProgramIndex

variable {index : ProgramIndex} {name : Text} {maxDistance : Nat} {candidate : Candidate}

theorem mem_entries_of_mem_candidates (h : candidate ∈ index.candidates name) :
    (candidate.name, candidate.path) ∈ index.entries := by
  unfold candidates at h
  rw [List.mem_map] at h
  obtain ⟨⟨entry, path⟩, hmem, rfl⟩ := h
  exact (List.mem_filter.1 hmem).1

theorem mem_candidates_of_closest? (h : index.closest? name maxDistance = some candidate) :
    candidate ∈ index.candidates name := by
  unfold closest? Candidate.nearest? at h
  split at h
  · contradiction
  · next first others heq =>
    dsimp only at h
    split at h
    · rw [Option.some.injEq] at h
      rw [heq, ← h]
      exact Candidate.foldl_closer_mem first others
    · contradiction

theorem mem_entries_of_closest? (h : index.closest? name maxDistance = some candidate) :
    (candidate.name, candidate.path) ∈ index.entries :=
  mem_entries_of_mem_candidates (mem_candidates_of_closest? h)

theorem exists_get?_of_mem_entries {path : Path} (h : (name, path) ∈ index.entries) :
    ∃ first, index.get? name = some first := by
  unfold get?
  cases hlookup : index.entries.lookup name with
  | some first => exact ⟨first, rfl⟩
  | none =>
    rw [List.lookup_eq_none_iff] at hlookup
    have := hlookup _ h
    simp at this

theorem exists_get?_of_contains (h : index.contains name = true) :
    ∃ path, index.get? name = some path := by
  unfold contains at h
  exact Option.isSome_iff_exists.1 h

end ProgramIndex

end Preflight
