import Preflight.Proofs.Spelling

/-!
This module contains the laws of the distance between two spellings: it does not depend on the order
of the two, it tells different spellings apart, and their lengths bound it from both sides.
-/

namespace Preflight

namespace Spelling

section costs

variable {a b : Text} {n : Nat}

theorem mem_costs_cons (h : n ∈ costs a b) (block : Block) :
    n + block.cost ∈ costs (block.left ++ a) (block.right ++ b) := by
  obtain ⟨blocks, ⟨rfl, rfl⟩, rfl⟩ := h
  refine ⟨block :: blocks, ⟨?_, ?_⟩, ?_⟩
  · simp
  · simp
  · simp [cost, Nat.add_comm]

theorem max_length_mem_costs (a b : Text) : max a.length b.length ∈ costs a b := by
  induction a generalizing b with
  | nil =>
    rw [costs_comm, List.length_nil, Nat.zero_max]
    exact (isLeast_costs_nil b).1
  | cons c a ih =>
    cases b with
    | nil =>
      rw [List.length_nil, Nat.max_zero]
      exact (isLeast_costs_nil (c :: a)).1
    | cons d b =>
      rw [List.length_cons, List.length_cons, Nat.add_max_add_right]
      exact mem_costs_cons (ih b) (.replace c d)

end costs

/--
Spellings of the same length are compared in the order in which they are given, so this rests on what
their alignments cost. Otherwise the longer one always comes first.
-/
theorem distance_comm (a b : Text) : distance a b = distance b a := by
  unfold distance
  rcases Nat.lt_trichotomy a.length b.length with hlt | heq | hgt
  · rw [if_neg (by omega), if_pos (by omega)]
  · rw [if_pos (by omega), if_pos (by omega)]
    apply (isLeast_distanceToShorter a.toArray b.toArray).unique
    rw [costs_comm]
    apply isLeast_distanceToShorter
  · rw [if_pos (by omega), if_neg (by omega)]

theorem isLeast_costs_distance (a b : Text) : IsLeast (costs a b) (distance a b) := by
  rcases Nat.le_total b.length a.length with hle | hle
  · unfold distance
    rw [if_pos hle]
    apply isLeast_distanceToShorter
  · rw [distance_comm, costs_comm]
    unfold distance
    rw [if_pos hle]
    apply isLeast_distanceToShorter

theorem length_le_add_distance (a b : Text) :
    a.length ≤ b.length + distance a b ∧ b.length ≤ a.length + distance a b := by
  have hcosts := (isLeast_costs_distance a b).1
  exact ⟨length_le_of_mem_costs hcosts, length_le_of_mem_costs (mem_costs_flip hcosts)⟩

theorem distance_comm_and_eq_zero_iff_and_bounds (a b : Text) :
    distance a b = distance b a ∧ (distance a b = 0 ↔ a = b) ∧
      ((a.length : Int) - b.length).natAbs ≤ distance a b ∧
      distance a b ≤ max a.length b.length := by
  have hlengths := length_le_add_distance a b
  refine ⟨distance_comm a b, distance_eq_zero_iff a b, ?_, ?_⟩
  · omega
  · exact (isLeast_costs_distance a b).2 (max_length_mem_costs a b)

-- A way round may be shorter than the direct one, as no character takes part in two edits.
example : distance ['c', 'a'] ['a', 'c'] + distance ['a', 'c'] ['a', 'b', 'c'] <
    distance ['c', 'a'] ['a', 'b', 'c'] := by decide

end Spelling

end Preflight
