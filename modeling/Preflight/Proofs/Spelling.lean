import Mathlib.Algebra.GroupWithZero.Nat
import Mathlib.Data.List.Induction
import Mathlib.Order.Bounds.Basic
import Mathlib.Order.MinMax
import Preflight.Spelling

/-!
This module contains that the distance between two spellings is the least cost of an alignment of
them, whichever of the two is the longer one.
-/

namespace Preflight

namespace Spelling

/--
A part of an alignment: characters of one spelling above the characters of the other one that they
become.
-/
inductive Block where
  | keep (c : Char)
  | replace (c d : Char)
  | delete (c : Char)
  | insert (d : Char)
  | exchange (c d : Char)
  deriving DecidableEq, Repr

namespace Block

def left : Block → Text
  | keep c => [c]
  | replace c _ => [c]
  | delete c => [c]
  | insert _ => []
  | exchange c d => [c, d]

def right : Block → Text
  | keep c => [c]
  | replace _ d => [d]
  | delete _ => []
  | insert d => [d]
  | exchange c d => [d, c]

def cost : Block → Nat
  | keep _ => 0
  | replace _ _ => 1
  | delete _ => 1
  | insert _ => 1
  | exchange _ _ => 1

def flip : Block → Block
  | keep c => keep c
  | replace c d => replace d c
  | delete c => insert c
  | insert d => delete d
  | exchange c d => exchange d c

@[simp]
theorem left_flip (block : Block) : block.flip.left = block.right := by
  cases block <;> simp [flip, left, right]

@[simp]
theorem right_flip (block : Block) : block.flip.right = block.left := by
  cases block <;> simp [flip, left, right]

@[simp]
theorem cost_flip (block : Block) : block.flip.cost = block.cost := by
  cases block <;> simp [flip, cost]

theorem length_left_le (block : Block) : block.left.length ≤ block.right.length + block.cost := by
  cases block <;> simp [left, right, cost]

end Block

def cost (blocks : List Block) : Nat := (blocks.map Block.cost).sum

def IsAlignment (blocks : List Block) (a b : Text) : Prop :=
  blocks.flatMap Block.left = a ∧ blocks.flatMap Block.right = b

def costs (a b : Text) : Set Nat := {n | ∃ blocks, IsAlignment blocks a b ∧ cost blocks = n}

section costs

variable {a b : Text} {n : Nat}

theorem mem_costs_append (h : n ∈ costs a b) (block : Block) :
    n + block.cost ∈ costs (a ++ block.left) (b ++ block.right) := by
  obtain ⟨blocks, ⟨rfl, rfl⟩, rfl⟩ := h
  refine ⟨blocks ++ [block], ⟨?_, ?_⟩, ?_⟩
  · simp
  · simp
  · simp [cost]

theorem exists_of_mem_costs (h : n ∈ costs a b) (hne : a ≠ [] ∨ b ≠ []) :
    ∃ a' b' m block, m ∈ costs a' b' ∧ a = a' ++ Block.left block ∧ b = b' ++ Block.right block ∧
      n = m + Block.cost block := by
  obtain ⟨blocks, ⟨rfl, rfl⟩, rfl⟩ := h
  cases blocks using List.reverseRecOn with
  | nil => simp at hne
  | append_singleton blocks block =>
    refine ⟨_, _, _, block, ⟨blocks, ⟨rfl, rfl⟩, rfl⟩, ?_, ?_, ?_⟩
    · simp
    · simp
    · simp [cost]

theorem mem_costs_flip (h : n ∈ costs a b) : n ∈ costs b a := by
  obtain ⟨blocks, ⟨rfl, rfl⟩, rfl⟩ := h
  refine ⟨blocks.map Block.flip, ⟨?_, ?_⟩, ?_⟩
  · simp [List.flatMap_map]
  · simp [List.flatMap_map]
  · simp [cost, Function.comp_def]

theorem costs_comm (a b : Text) : costs a b = costs b a := by
  ext n
  constructor
  · apply mem_costs_flip
  · apply mem_costs_flip

theorem length_le_of_mem_costs (h : n ∈ costs a b) : a.length ≤ b.length + n := by
  obtain ⟨blocks, ⟨rfl, rfl⟩, rfl⟩ := h
  induction blocks with
  | nil => simp
  | cons block blocks ih =>
    have := block.length_left_le
    simp only [cost, List.flatMap_cons, List.length_append, List.map_cons, List.sum_cons] at *
    omega

theorem isLeast_costs_nil (a : Text) : IsLeast (costs a []) a.length := by
  constructor
  · refine ⟨a.map Block.delete, ⟨?_, ?_⟩, ?_⟩
    · simp [List.flatMap_map, Block.left]
    · simp [List.flatMap_map, Block.right]
    · simp [cost, Function.comp_def, Block.cost, List.map_const']
  · intro n h
    simpa using length_le_of_mem_costs h

theorem zero_mem_costs_iff : 0 ∈ costs a b ↔ a = b := by
  constructor
  · rintro ⟨blocks, ⟨rfl, rfl⟩, hcost⟩
    induction blocks with
    | nil => rfl
    | cons block blocks ih =>
      unfold cost at hcost ih
      rw [List.map_cons, List.sum_cons, Nat.add_eq_zero_iff] at hcost
      rw [List.flatMap_cons, List.flatMap_cons, ih hcost.2]
      -- Only keeping a character is free.
      cases block with
      | keep c => rfl
      | _ => exact absurd hcost.1 Nat.one_ne_zero
  · rintro rfl
    refine ⟨a.map Block.keep, ⟨?_, ?_⟩, ?_⟩
    · simp [List.flatMap_map, Block.left]
    · simp [List.flatMap_map, Block.right]
    · simp [cost, Function.comp_def, Block.cost, List.map_const']

theorem eq_zero_iff_of_isLeast_costs (h : IsLeast (costs a b) n) : n = 0 ↔ a = b := by
  rw [← zero_mem_costs_iff]
  constructor
  · rintro rfl
    exact h.1
  · intro hzero
    exact Nat.le_zero.1 (h.2 hzero)

end costs

section concat

variable {a b : Text} {c d : Char} {delete insert keepOrReplace : Nat}
variable (hdelete : IsLeast (costs a (b ++ [d])) delete)
variable (hinsert : IsLeast (costs (a ++ [c]) b) insert)
variable (hkeep : IsLeast (costs a b) keepOrReplace)
include hdelete hinsert hkeep

theorem mem_costs_concat :
    min (min (delete + 1) (insert + 1)) (keepOrReplace + if c = d then 0 else 1) ∈
      costs (a ++ [c]) (b ++ [d]) := by
  have hdeleted := mem_costs_append hdelete.1 (.delete c)
  have hinserted := mem_costs_append hinsert.1 (.insert d)
  have hlast : keepOrReplace + (if c = d then 0 else 1) ∈ costs (a ++ [c]) (b ++ [d]) := by
    split
    · next heq =>
      subst heq
      exact mem_costs_append hkeep.1 (.keep c)
    · exact mem_costs_append hkeep.1 (.replace c d)
  simp only [Block.left, Block.right, Block.cost, List.append_nil] at hdeleted hinserted
  apply min_rec'
  · apply min_rec'
    · assumption
    · assumption
  · assumption

theorem le_or_exists_exchange {n : Nat} (h : n ∈ costs (a ++ [c]) (b ++ [d])) :
    min (min (delete + 1) (insert + 1)) (keepOrReplace + if c = d then 0 else 1) ≤ n ∨
      ∃ a' b' m, m ∈ costs a' b' ∧ a = a' ++ [d] ∧ b = b' ++ [c] ∧ n = m + 1 := by
  obtain ⟨a', b', m, block, hm, hleft, hright, rfl⟩ := exists_of_mem_costs h (by simp)
  cases block with
  | keep e =>
    left
    simp only [Block.left, Block.right, List.append_singleton_inj] at hleft hright
    obtain ⟨rfl, rfl⟩ := hleft
    obtain ⟨rfl, rfl⟩ := hright
    have := hkeep.2 hm
    rw [if_pos rfl]
    omega
  | replace e f =>
    left
    simp only [Block.left, Block.right, List.append_singleton_inj] at hleft hright
    obtain ⟨rfl, rfl⟩ := hleft
    obtain ⟨rfl, rfl⟩ := hright
    have := hkeep.2 hm
    simp only [Block.cost]
    split
    · omega
    · omega
  | delete e =>
    left
    simp only [Block.left, Block.right, List.append_singleton_inj, List.append_nil] at hleft hright
    obtain ⟨rfl, rfl⟩ := hleft
    subst hright
    have := hdelete.2 hm
    simp only [Block.cost]
    omega
  | insert f =>
    left
    simp only [Block.left, Block.right, List.append_singleton_inj, List.append_nil] at hleft hright
    obtain ⟨rfl, rfl⟩ := hright
    subst hleft
    have := hinsert.2 hm
    simp only [Block.cost]
    omega
  | exchange e f =>
    right
    have hleft' : a ++ [c] = (a' ++ [e]) ++ [f] := by simpa [Block.left] using hleft
    have hright' : b ++ [d] = (b' ++ [f]) ++ [e] := by simpa [Block.right] using hright
    simp only [List.append_singleton_inj] at hleft' hright'
    obtain ⟨rfl, rfl⟩ := hleft'
    obtain ⟨rfl, rfl⟩ := hright'
    exact ⟨a', b', m, hm, rfl, rfl, rfl⟩

theorem isLeast_costs_concat (hne : ∀ a' b', a = a' ++ [d] → b ≠ b' ++ [c]) :
    IsLeast (costs (a ++ [c]) (b ++ [d]))
      (min (min (delete + 1) (insert + 1)) (keepOrReplace + if c = d then 0 else 1)) := by
  constructor
  · apply mem_costs_concat hdelete hinsert hkeep
  · intro n h
    rcases le_or_exists_exchange hdelete hinsert hkeep h with hle | ⟨a', b', m, _, ha, hb, _⟩
    · exact hle
    · exact absurd hb (hne a' b' ha)

theorem isLeast_costs_concat_exchange {a' b' : Text} {exchange : Nat} (ha : a = a' ++ [d])
    (hb : b = b' ++ [c]) (hexchange : IsLeast (costs a' b') exchange) :
    IsLeast (costs (a ++ [c]) (b ++ [d]))
      (min (min (min (delete + 1) (insert + 1)) (keepOrReplace + if c = d then 0 else 1))
        (exchange + 1)) := by
  constructor
  · apply min_rec'
    · apply mem_costs_concat hdelete hinsert hkeep
    · have := mem_costs_append hexchange.1 (.exchange d c)
      simpa [Block.left, Block.right, Block.cost, ha, hb] using this
  · intro n h
    rcases le_or_exists_exchange hdelete hinsert hkeep h with hle | ⟨_, _, m, hm, ha', hb', rfl⟩
    · apply min_le_of_left_le hle
    · simp only [ha, hb, List.append_singleton_inj, and_true] at ha' hb'
      subst ha'
      subst hb'
      have := hexchange.2 hm
      omega

end concat

namespace Rows

variable {long short : Array Char}

def IsFilled (long short : Array Char) (i k : Nat) (row : Vector Nat (short.size + 1)) : Prop :=
  ∀ j (hj : j < short.size + 1), j ≤ k →
    IsLeast (costs (long.toList.take i) (short.toList.take j)) row[j]

theorem take_succ_eq (t : Array Char) (i : Nat) (hi : i < t.size) :
    t.toList.take (i + 1) = t.toList.take i ++ [t[i]] := by
  rw [List.take_succ_eq_append_getElem hi]
  simp

section fill

variable {rows : Rows (short.size + 1)} {i : Nat} {hi : i < long.size}

@[simp]
theorem previous_fill (j : Nat) (hj : j ≤ short.size) :
    (fill long short i hi rows j hj).previous = rows.previous := by
  induction j with
  | zero => rfl
  | succ j ih => apply ih

@[simp]
theorem before_fill (j : Nat) (hj : j ≤ short.size) :
    (fill long short i hi rows j hj).before = rows.before := by
  induction j with
  | zero => rfl
  | succ j ih => apply ih

theorem isLeast_cell {j : Nat} {hj : j < short.size}
    (hprevious : IsFilled long short i short.size rows.previous)
    (hbefore : ∀ i', i = i' + 1 → IsFilled long short i' short.size rows.before)
    (hcurrent : IsFilled long short (i + 1) j rows.current) :
    IsLeast (costs (long.toList.take (i + 1)) (short.toList.take (j + 1)))
      (cell long short rows i j hi hj) := by
  have hdelete := hprevious (j + 1) (by omega) hj
  have hinsert := hcurrent j (by omega) (by omega)
  have hkeep := hprevious j (by omega) (by omega)
  rw [take_succ_eq long i hi] at hinsert ⊢
  rw [take_succ_eq short j hj] at hdelete ⊢
  unfold cell
  dsimp only
  split
  · next hpos =>
    obtain ⟨i, rfl⟩ := Nat.exists_eq_add_one.2 hpos.1
    obtain ⟨j, rfl⟩ := Nat.exists_eq_add_one.2 hpos.2
    simp only [Nat.add_sub_cancel]
    rw [take_succ_eq long i (by omega)] at *
    rw [take_succ_eq short j (by omega)] at *
    split
    · next hcrossed =>
      apply isLeast_costs_concat_exchange hdelete hinsert hkeep
      · rw [hcrossed.2]
      · rw [hcrossed.1]
      · apply hbefore i rfl
        omega
    · next hcrossed =>
      apply isLeast_costs_concat hdelete hinsert hkeep
      intro a' b' ha hb
      simp only [List.append_singleton_inj] at ha hb
      apply hcrossed
      exact ⟨hb.2.symm, ha.2⟩
  · next hpos =>
    apply isLeast_costs_concat hdelete hinsert hkeep
    intro a' b' ha hb
    have hlong := congrArg List.length ha
    have hshort := congrArg List.length hb
    simp at hlong hshort
    omega

theorem isFilled_fill (hprevious : IsFilled long short i short.size rows.previous)
    (hbefore : ∀ i', i = i' + 1 → IsFilled long short i' short.size rows.before)
    (j : Nat) (hj : j ≤ short.size) :
    IsFilled long short (i + 1) j (fill long short i hi rows j hj).current := by
  induction j with
  | zero =>
    intro j hj hle
    obtain rfl : j = 0 := by omega
    have := isLeast_costs_nil (long.toList.take (i + 1))
    have hlength : min (i + 1) long.size = i + 1 := by omega
    simpa [fill, put, hlength] using this
  | succ j ih =>
    intro k hk hle
    unfold fill put
    dsimp only
    rw [Vector.getElem_set]
    split
    · next heq =>
      subst heq
      apply isLeast_cell
      · simpa using hprevious
      · simpa using hbefore
      · apply ih
    · apply ih
      omega

end fill

theorem isFilled_previous_after (long short : Array Char) (i : Nat) (hi : i ≤ long.size) :
    IsFilled long short i short.size (after long short i hi).previous ∧
      ∀ i', i = i' + 1 → IsFilled long short i' short.size (after long short i hi).before := by
  induction i with
  | zero =>
    constructor
    · intro j hj hle
      have := isLeast_costs_nil (short.toList.take j)
      rw [costs_comm]
      simpa [after, start, Nat.min_eq_left hle] using this
    · simp
  | succ i ih =>
    obtain ⟨hprevious, hbefore⟩ := ih (by omega)
    constructor
    · apply isFilled_fill hprevious hbefore
    · intro i' heq
      obtain rfl : i = i' := by omega
      simpa [after, rotate] using hprevious

end Rows

theorem isLeast_distanceToShorter (long short : Array Char) :
    IsLeast (costs long.toList short.toList) (distanceToShorter long short) := by
  unfold distanceToShorter
  split
  · next h =>
    have := isLeast_costs_nil long.toList
    simp only [Array.isEmpty_iff] at h
    simpa [h] using this
  · obtain ⟨hprevious, _⟩ := Rows.isFilled_previous_after long short long.size (Nat.le_refl _)
    have := hprevious short.size (by omega) (by omega)
    rw [List.take_of_length_le (by simp), List.take_of_length_le (by simp)] at this
    exact this

theorem distance_eq_zero_iff (a b : Text) : distance a b = 0 ↔ a = b := by
  unfold distance
  split
  · exact eq_zero_iff_of_isLeast_costs (isLeast_distanceToShorter a.toArray b.toArray)
  · rw [@eq_comm _ a b]
    exact eq_zero_iff_of_isLeast_costs (isLeast_distanceToShorter b.toArray a.toArray)

theorem isLeast_distance (a b : Text) :
    IsLeast (costs a b) (distance a b) ∧ distance b a = distance a b := by
  have hleast : ∀ a b, IsLeast (costs a b) (distance a b) := by
    intro a b
    unfold distance
    split
    · apply isLeast_distanceToShorter
    · rw [costs_comm]
      apply isLeast_distanceToShorter
  constructor
  · apply hleast
  · apply (hleast b a).unique
    rw [costs_comm]
    apply hleast

-- Two characters that are exchanged stay next to each other.
example : distance ['c', 'a'] ['a', 'b', 'c'] = 3 := by decide

end Spelling

end Preflight
