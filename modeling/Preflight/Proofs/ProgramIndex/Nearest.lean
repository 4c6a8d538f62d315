import Mathlib.Data.Char
import Mathlib.Data.List.Lex
import Mathlib.Data.Prod.Lex
import Preflight.Proofs.ProgramIndex
import Preflight.Proofs.Spelling.Laws

/-!
This module contains that the program suggested for a misspelled name is the first one by distance
and name, in whatever order the programs are listed, and that nothing is lost by looking only at
names of about the same length.
-/

namespace Preflight

namespace Candidate

def rank (candidate : Candidate) : ℕ ×ₗ Text := toLex (candidate.distance, candidate.name)

theorem isCloser_iff (a b : Candidate) : a.isCloser b = true ↔ a.rank < b.rank := by
  unfold rank
  rw [Prod.Lex.toLex_lt_toLex]
  simp [isCloser]

theorem rank_closer_le (a b : Candidate) :
    (closer a b).rank ≤ a.rank ∧ (closer a b).rank ≤ b.rank := by
  unfold closer
  split
  · next h =>
    rw [isCloser_iff] at h
    exact ⟨le_of_lt h, le_refl _⟩
  · next h =>
    rw [isCloser_iff, not_lt] at h
    exact ⟨le_refl _, h⟩

theorem rank_foldl_closer_le (first : Candidate) (others : List Candidate) :
    ∀ candidate ∈ first :: others, (others.foldl closer first).rank ≤ candidate.rank := by
  induction others generalizing first with
  | nil => simp
  | cons next others ih =>
    have hclosest := ih (closer first next)
    rw [List.forall_mem_cons] at hclosest
    rw [List.foldl_cons, List.forall_mem_cons, List.forall_mem_cons]
    refine ⟨?_, ?_, hclosest.2⟩
    · exact le_trans hclosest.1 (rank_closer_le first next).1
    · exact le_trans hclosest.1 (rank_closer_le first next).2

theorem distance_le_of_rank_le {a b : Candidate} (h : a.rank ≤ b.rank) :
    a.distance ≤ b.distance := by
  unfold rank at h
  rw [Prod.Lex.toLex_le_toLex] at h
  rcases h with h | ⟨h, _⟩
  · exact le_of_lt h
  · exact le_of_eq h

section nearest

variable {candidates : List Candidate} {maxDistance : Nat}

theorem nearest?_eq_none_iff :
    nearest? candidates maxDistance = none ↔
      ∀ candidate ∈ candidates, maxDistance < candidate.distance := by
  unfold nearest?
  split
  · simp
  · next first others =>
    dsimp only
    have hrank := rank_foldl_closer_le first others
    split
    · next hle =>
      simp only [reduceCtorEq, false_iff]
      intro hlt
      have := hlt _ (foldl_closer_mem first others)
      omega
    · next hlt =>
      simp only [true_iff]
      intro candidate hmem
      have := distance_le_of_rank_le (hrank candidate hmem)
      omega

theorem nearest?_eq_some_iff (hne : ∀ a ∈ candidates, ∀ b ∈ candidates, a.rank = b.rank → a = b)
    {candidate : Candidate} :
    nearest? candidates maxDistance = some candidate ↔
      candidate ∈ candidates ∧ (∀ other ∈ candidates, candidate.rank ≤ other.rank) ∧
        candidate.distance ≤ maxDistance := by
  unfold nearest?
  split
  · simp
  · next first others =>
    dsimp only
    have hrank := rank_foldl_closer_le first others
    have hmem := foldl_closer_mem first others
    split
    · next hle =>
      rw [Option.some.injEq]
      constructor
      · rintro rfl
        exact ⟨hmem, hrank, hle⟩
      · rintro ⟨hcandidate, hfirst, _⟩
        exact hne _ hmem _ hcandidate (le_antisymm (hrank _ hcandidate) (hfirst _ hmem))
    · next hgt =>
      simp only [reduceCtorEq, false_iff]
      rintro ⟨hcandidate, hfirst, hle⟩
      have := distance_le_of_rank_le (hrank _ hcandidate)
      omega

end nearest

end Candidate

namespace ProgramIndex

section ofList

variable {index : ProgramIndex} {programs : List (Text × Path)} {name : Text} {path : Path}

theorem get?_insert (index : ProgramIndex) (name : Text) (path : Path) (other : Text) :
    (index.insert name path).get? other = (index.get? other).or ([(name, path)].lookup other) := by
  unfold insert
  split
  · next h =>
    obtain ⟨first, hfirst⟩ := exists_get?_of_contains h
    rw [List.lookup_cons]
    split
    · next heq => rw [eq_of_beq heq, hfirst, Option.some_or]
    · rw [List.lookup_nil, Option.or_none]
  · unfold get?
    apply List.lookup_append

theorem get?_foldl_insert (index : ProgramIndex) (programs : List (Text × Path)) (name : Text) :
    (programs.foldl (fun index (name, path) => index.insert name path) index).get? name =
      (index.get? name).or (programs.lookup name) := by
  induction programs generalizing index with
  | nil => simp
  | cons program programs ih =>
    rw [List.foldl_cons, ih, get?_insert, Option.or_assoc, ← List.lookup_append,
      List.singleton_append]

theorem get?_ofList (programs : List (Text × Path)) (name : Text) :
    (ofList programs).get? name = programs.lookup name := by
  unfold ofList
  rw [get?_foldl_insert]
  rfl

def IsTable (index : ProgramIndex) : Prop :=
  ∀ name path, (name, path) ∈ index.entries → index.get? name = some path

theorem IsTable.insert (h : index.IsTable) : (index.insert name path).IsTable := by
  intro other otherPath hmem
  rw [get?_insert]
  unfold ProgramIndex.insert at hmem
  split at hmem
  · rw [h _ _ hmem, Option.some_or]
  · next hnew =>
    unfold contains at hnew
    rw [List.mem_append, List.mem_singleton] at hmem
    rcases hmem with hmem | heq
    · rw [h _ _ hmem, Option.some_or]
    · cases heq
      rw [Option.not_isSome_iff_eq_none.1 hnew]
      simp

theorem IsTable.foldl_insert (h : index.IsTable) :
    (programs.foldl (fun index (name, path) => index.insert name path) index).IsTable := by
  induction programs generalizing index with
  | nil => exact h
  | cons program programs ih => exact ih h.insert

theorem mem_entries_of_get? (h : index.get? name = some path) : (name, path) ∈ index.entries := by
  unfold get? at h
  obtain ⟨front, back, heq, _⟩ := List.lookup_eq_some_iff.1 h
  simp [heq]

theorem mem_entries_ofList :
    (name, path) ∈ (ofList programs).entries ↔ programs.lookup name = some path := by
  rw [← get?_ofList]
  constructor
  · have htable : empty.IsTable := fun _ _ hmem => absurd hmem List.not_mem_nil
    exact htable.foldl_insert name path
  · exact mem_entries_of_get?

end ofList

/--
Whether a candidate has the least distance among the names for which `isAllowed` holds, and the
least name among those at that distance. Its path is the one that is given first for its name.
-/
structure IsNearest (programs : List (Text × Path)) (isAllowed : Text → Prop) (typed : Text)
    (candidate : Candidate) : Prop where
  isLeast : IsLeast
    {key : ℕ ×ₗ Text | ∃ entry ∈ programs, isAllowed entry.1 ∧
      toLex (Spelling.distance typed entry.1, entry.1) = key}
    (toLex (candidate.distance, candidate.name))
  distance_eq : candidate.distance = Spelling.distance typed candidate.name
  lookup_eq : programs.lookup candidate.name = some candidate.path

def HasCloseLength (typed name : Text) : Prop :=
  name.length ≤ typed.length + 2 ∧ typed.length ≤ name.length + 2

def AreCandidates (programs : List (Text × Path)) (isAllowed : Text → Prop) (typed : Text)
    (candidates : List Candidate) : Prop :=
  ∀ candidate, candidate ∈ candidates ↔
    programs.lookup candidate.name = some candidate.path ∧ isAllowed candidate.name ∧
      candidate.distance = Spelling.distance typed candidate.name

section nearest

variable {programs : List (Text × Path)} {isAllowed : Text → Prop} {typed : Text}
  {candidates : List Candidate} {maxDistance : Nat}
  (hcandidates : AreCandidates programs isAllowed typed candidates)
include hcandidates

theorem exists_candidate {entry : Text × Path} (hmem : entry ∈ programs)
    (hallowed : isAllowed entry.1) :
    ∃ path, (⟨entry.1, path, Spelling.distance typed entry.1⟩ : Candidate) ∈ candidates := by
  obtain ⟨path, hpath⟩ := @exists_get?_of_mem_entries ⟨programs⟩ entry.1 entry.2 hmem
  exact ⟨path, (hcandidates _).2 ⟨hpath, hallowed, rfl⟩⟩

theorem nearest?_eq_some_iff_isNearest {candidate : Candidate} :
    Candidate.nearest? candidates maxDistance = some candidate ↔
      IsNearest programs isAllowed typed candidate ∧ candidate.distance ≤ maxDistance := by
  rw [Candidate.nearest?_eq_some_iff, hcandidates candidate]
  · constructor
    · rintro ⟨⟨hlookup, hallowed, hdistance⟩, hfirst, hle⟩
      refine ⟨⟨⟨?_, ?_⟩, hdistance, hlookup⟩, hle⟩
      · exact ⟨_, @mem_entries_of_get? ⟨programs⟩ _ _ hlookup, hallowed, by rw [hdistance]⟩
      · rintro key ⟨entry, hmem, hallowed, rfl⟩
        obtain ⟨path, hcandidate⟩ := exists_candidate hcandidates hmem hallowed
        exact hfirst _ hcandidate
    · rintro ⟨⟨⟨⟨entry, hmem, hallowed, hkey⟩, hfirst⟩, hdistance, hlookup⟩, hle⟩
      have hname : entry.1 = candidate.name := (Prod.ext_iff.1 (toLex.injective hkey)).2
      refine ⟨⟨hlookup, hname ▸ hallowed, hdistance⟩, ?_, hle⟩
      intro other hother
      obtain ⟨hpath, hother, hotherDistance⟩ := (hcandidates other).1 hother
      apply hfirst
      refine ⟨_, @mem_entries_of_get? ⟨programs⟩ _ _ hpath, hother, ?_⟩
      rw [← hotherDistance]
      rfl
  · intro a ha b hb hrank
    obtain ⟨hdistance, hname⟩ := Prod.ext_iff.1 (toLex.injective hrank)
    obtain ⟨hpathA, _⟩ := (hcandidates a).1 ha
    obtain ⟨hpathB, _⟩ := (hcandidates b).1 hb
    cases a
    cases b
    cases hdistance
    cases hname
    rw [hpathA, Option.some.injEq] at hpathB
    cases hpathB
    rfl

theorem nearest?_eq_none_iff_forall :
    Candidate.nearest? candidates maxDistance = none ↔
      ∀ entry ∈ programs, isAllowed entry.1 → maxDistance < Spelling.distance typed entry.1 := by
  rw [Candidate.nearest?_eq_none_iff]
  constructor
  · intro h entry hmem hallowed
    obtain ⟨path, hcandidate⟩ := exists_candidate hcandidates hmem hallowed
    exact h _ hcandidate
  · intro h candidate hmem
    obtain ⟨hlookup, hallowed, hdistance⟩ := (hcandidates candidate).1 hmem
    rw [hdistance]
    exact h _ (@mem_entries_of_get? ⟨programs⟩ _ _ hlookup) hallowed

end nearest

theorem areLengthsClose_iff (typed name : Text) :
    areLengthsClose name typed = true ↔ HasCloseLength typed name := by
  unfold areLengthsClose HasCloseLength maxLengthDifference
  rw [Bool.and_eq_true, decide_eq_true_eq, decide_eq_true_eq]

theorem mem_map_ofEntry_iff {entries : List (Text × Path)} {typed : Text} {candidate : Candidate} :
    candidate ∈ entries.map (Candidate.ofEntry typed) ↔
      (candidate.name, candidate.path) ∈ entries ∧
        candidate.distance = Spelling.distance typed candidate.name := by
  rw [List.mem_map]
  constructor
  · rintro ⟨entry, hmem, rfl⟩
    exact ⟨hmem, rfl⟩
  · rintro ⟨hmem, hdistance⟩
    refine ⟨_, hmem, ?_⟩
    unfold Candidate.ofEntry
    rw [← hdistance]

section closest

variable {programs programs' : List (Text × Path)} {index : ProgramIndex}
  (h : index.entries.Perm (ofList programs').entries)
  (hlookup : ∀ name, programs'.lookup name = programs.lookup name)
include h hlookup

theorem areCandidates_candidates (typed : Text) :
    AreCandidates programs (HasCloseLength typed) typed (index.candidates typed) := by
  intro candidate
  unfold candidates
  rw [mem_map_ofEntry_iff, List.mem_filter, areLengthsClose_iff, h.mem_iff, mem_entries_ofList,
    hlookup, and_assoc]

theorem areCandidates_map_ofEntry (typed : Text) :
    AreCandidates programs (fun _ => True) typed
      (index.entries.map (Candidate.ofEntry typed)) := by
  intro candidate
  rw [mem_map_ofEntry_iff, h.mem_iff, mem_entries_ofList, hlookup, true_and]

end closest

section isNearest

variable {programs : List (Text × Path)} {typed : Text} {candidate : Candidate}

theorem isNearest_hasCloseLength_iff (h : candidate.distance ≤ 2) :
    IsNearest programs (HasCloseLength typed) typed candidate ↔
      IsNearest programs (fun _ => True) typed candidate := by
  have hclose : ∀ name, Spelling.distance typed name ≤ 2 → HasCloseLength typed name := by
    intro name hle
    have := Spelling.length_le_add_distance typed name
    unfold HasCloseLength
    omega
  constructor
  · rintro ⟨⟨⟨entry, hmem, hallowed, hkey⟩, hfirst⟩, hdistance, hlookup⟩
    refine ⟨⟨⟨entry, hmem, trivial, hkey⟩, ?_⟩, hdistance, hlookup⟩
    rintro key ⟨other, hother, -, rfl⟩
    by_cases hle : Spelling.distance typed other.1 ≤ 2
    · exact hfirst ⟨other, hother, hclose _ hle, rfl⟩
    · rw [Prod.Lex.toLex_le_toLex]
      left
      dsimp only
      omega
  · rintro ⟨⟨⟨entry, hmem, -, hkey⟩, hfirst⟩, hdistance, hlookup⟩
    have hentry := (Prod.ext_iff.1 (toLex.injective hkey)).1
    dsimp only at hentry
    refine ⟨⟨⟨entry, hmem, hclose _ (by omega), hkey⟩, ?_⟩, hdistance, hlookup⟩
    rintro key ⟨other, hother, -, rfl⟩
    exact hfirst ⟨other, hother, trivial, rfl⟩

end isNearest

theorem isNearest_closest? {programs : List (Text × Path)} {index : ProgramIndex}
    (h : index.entries.Perm (ofList programs).entries) (typed : Text) (maxDistance : Nat) :
    (∀ candidate, index.closest? typed maxDistance = some candidate ↔
      IsNearest programs (HasCloseLength typed) typed candidate ∧
        candidate.distance ≤ maxDistance) ∧
    (index.closest? typed maxDistance = none ↔
      ∀ entry ∈ programs, HasCloseLength typed entry.1 →
        maxDistance < Spelling.distance typed entry.1) ∧
    (∀ (programs' : List (Text × Path)) (index' : ProgramIndex),
      (∀ name, programs'.lookup name = programs.lookup name) →
        index'.entries.Perm (ofList programs').entries →
        index'.closest? typed maxDistance = index.closest? typed maxDistance) ∧
    (maxDistance ≤ 2 →
      index.closest? typed maxDistance =
        Candidate.nearest? (index.entries.map (Candidate.ofEntry typed)) maxDistance) := by
  have hcandidates := areCandidates_candidates h (fun _ => rfl) typed
  refine ⟨fun _ => nearest?_eq_some_iff_isNearest hcandidates,
    nearest?_eq_none_iff_forall hcandidates, ?_, ?_⟩
  · intro programs' index' hlookup h'
    apply Option.ext
    intro candidate
    unfold closest?
    rw [nearest?_eq_some_iff_isNearest hcandidates,
      nearest?_eq_some_iff_isNearest (areCandidates_candidates h' hlookup typed)]
  · intro hle
    apply Option.ext
    intro candidate
    unfold closest?
    rw [nearest?_eq_some_iff_isNearest hcandidates,
      nearest?_eq_some_iff_isNearest (areCandidates_map_ofEntry h (fun _ => rfl) typed)]
    apply and_congr_left
    intro hdistance
    apply isNearest_hasCloseLength_iff
    omega

theorem isNearest_closest?_tie :
    let b : Text × Path := (['l', 'b'], [0x31])
    let a : Text × Path := (['l', 'a'], [0x32])
    let again : Text × Path := (['l', 'a'], [0x33])
    let index := ofList [b, a, again]
    index.entries.Perm (ofList [b, a, again]).entries ∧
      IsNearest [b, a, again] (HasCloseLength ['l']) ['l'] ⟨a.1, a.2, 1⟩ ∧
      (∀ name, [a, b, again].lookup name = [b, a, again].lookup name) ∧
      (ofList [a, b, again]).closest? ['l'] 2 = index.closest? ['l'] 2 ∧
      index.closest? ['l'] 2 =
        Candidate.nearest? (index.entries.map (Candidate.ofEntry ['l'])) 2 := by
  intro b a again index
  have hperm := List.Perm.refl index.entries
  obtain ⟨hsome, _, horder, hall⟩ := isNearest_closest? hperm ['l'] 2
  have hlookup : ∀ name, [a, b, again].lookup name = [b, a, again].lookup name := by
    intro name
    simp only [List.lookup_cons, List.lookup_nil, a, b, again]
    by_cases ha : name = ['l', 'a']
    · simp [ha]
    · rw [beq_false_of_ne ha]
  refine ⟨hperm, ((hsome _).1 ?_).1, hlookup, ?_, ?_⟩
  · decide
  · exact horder _ _ hlookup (List.Perm.refl _)
  · exact hall (Nat.le_refl 2)

end ProgramIndex

end Preflight
