import Preflight.Files.Path

/-!
This module contains how the moves that paths describe are put together when paths are, and which
paths make the same moves.
-/

namespace Preflight

def Name.IsProper (name : Name) : Prop :=
  name ≠ [] ∧ Path.slash ∉ name ∧ name ≠ [0x2E] ∧ name ≠ [0x2E, 0x2E]

instance (name : Name) : Decidable (Name.IsProper name) :=
  inferInstanceAs (Decidable (name ≠ [] ∧ Path.slash ∉ name ∧ name ≠ [0x2E] ∧ name ≠ [0x2E, 0x2E]))

namespace Step

def ofInner? (piece : Utf8.Bytes) : Option Step :=
  if piece = [] then none else some (ofPiece piece)

def move? (piece : Utf8.Bytes) : Option Step :=
  if piece = [] ∨ piece = [0x2E] then none else some (ofPiece piece)

def IsMove : Step → Prop
  | stay => False
  | parent => True
  | child name => Name.IsProper name

theorem ofPiece_eq_stay_iff {piece : Utf8.Bytes} : ofPiece piece = .stay ↔ piece = [0x2E] := by
  unfold ofPiece
  split
  · simp [*]
  · split <;> simp [*]

theorem bytes_ofPiece (piece : Utf8.Bytes) : (ofPiece piece).bytes = piece := by
  unfold ofPiece
  split
  · simp [*, bytes]
  · split <;> simp [*, bytes]

theorem bytes_of_move?_eq_some {piece : Utf8.Bytes} {move : Step} (h : move? piece = some move) :
    move.bytes = piece := by
  unfold move? at h
  split at h
  · contradiction
  · injection h with h
    rw [← h, bytes_ofPiece]

theorem isMove_of_move?_eq_some {piece : Utf8.Bytes} {move : Step} (h : move? piece = some move)
    (hslash : Path.slash ∉ piece) : move.IsMove := by
  unfold move? at h
  split at h
  · contradiction
  · next hne =>
    injection h with h
    rw [not_or] at hne
    subst h
    unfold ofPiece
    rw [if_neg hne.2]
    split
    · trivial
    · next hparent => exact ⟨hne.1, hslash, hne.2, hparent⟩

theorem move?_bytes {move : Step} (h : move.IsMove) : move? move.bytes = some move := by
  cases move with
  | stay => contradiction
  | parent => rfl
  | child name =>
    obtain ⟨hne, hslash, hstay, hparent⟩ := h
    unfold move? bytes ofPiece
    rw [if_neg (by simp [hne, hstay]), if_neg hstay, if_neg hparent]

theorem slash_not_mem_bytes {move : Step} (h : move.IsMove) : Path.slash ∉ move.bytes := by
  cases move with
  | stay => contradiction
  | parent => decide
  | child name => exact h.2.1

end Step

namespace Path

section pieces

theorem pieces_cons_slash (path : Path) : pieces (slash :: path) = [] :: pieces path := by
  rw [pieces, if_pos rfl]

theorem pieces_ne_nil (path : Path) : pieces path ≠ [] := by
  fun_induction pieces path <;> simp_all

theorem pieces_cons_of_ne {b : UInt8} {path : Path} {piece : Utf8.Bytes} {rest : List Utf8.Bytes}
    (hb : b ≠ slash) (h : pieces path = piece :: rest) :
    pieces (b :: path) = (b :: piece) :: rest := by
  rw [pieces, if_neg hb, h]

theorem pieces_append_cons (front back : Path) :
    pieces (front ++ slash :: back) = pieces front ++ pieces back := by
  induction front with
  | nil => exact pieces_cons_slash back
  | cons b front ih =>
    by_cases hb : b = slash
    · rw [hb, List.cons_append, pieces_cons_slash, ih, pieces_cons_slash]
      rfl
    · obtain ⟨piece, rest, hpieces⟩ := List.exists_cons_of_ne_nil (pieces_ne_nil front)
      rw [hpieces] at ih
      rw [List.cons_append, pieces_cons_of_ne hb ih, pieces_cons_of_ne hb hpieces]
      rfl

theorem pieces_of_not_mem {path : Path} (h : slash ∉ path) : pieces path = [path] := by
  induction path with
  | nil => rfl
  | cons b path ih =>
    rw [List.mem_cons, not_or] at h
    exact pieces_cons_of_ne (Ne.symm h.1) (ih h.2)

theorem not_mem_of_mem_pieces {path : Path} {piece : Utf8.Bytes} (h : piece ∈ pieces path) :
    slash ∉ piece := by
  induction path generalizing piece with
  | nil =>
    rw [pieces, List.mem_singleton] at h
    simp [h]
  | cons b path ih =>
    by_cases hb : b = slash
    · rw [hb, pieces_cons_slash, List.mem_cons] at h
      rcases h with rfl | h
      · exact List.not_mem_nil
      · exact ih h
    · obtain ⟨first, rest, hpieces⟩ := List.exists_cons_of_ne_nil (pieces_ne_nil path)
      rw [pieces_cons_of_ne hb hpieces, List.mem_cons] at h
      rcases h with rfl | h
      · rw [List.mem_cons, not_or]
        constructor
        · exact Ne.symm hb
        · apply ih
          rw [hpieces]
          exact List.mem_cons_self
      · apply ih
        rw [hpieces]
        exact List.mem_cons_of_mem first h

theorem intercalate_pieces (path : Path) : [slash].intercalate (pieces path) = path := by
  induction path with
  | nil => rfl
  | cons b path ih =>
    obtain ⟨first, rest, hpieces⟩ := List.exists_cons_of_ne_nil (pieces_ne_nil path)
    by_cases hb : b = slash
    · rw [hb, pieces_cons_slash, hpieces, List.intercalate_cons_cons, ← hpieces, ih]
      rfl
    · rw [pieces_cons_of_ne hb hpieces]
      rw [hpieces] at ih
      cases rest with
      | nil =>
        rw [List.intercalate_singleton] at ih ⊢
        rw [ih]
      | cons next rest =>
        rw [List.intercalate_cons_cons] at ih ⊢
        rw [List.cons_append, List.cons_append, ih]

section map

variable {f : Path → Path} (hf : ∀ a b, f (a ++ slash :: b) = f a ++ slash :: f b)
  (hslash : ∀ a, slash ∉ a → slash ∉ f a)
include hf hslash

theorem pieces_map_intercalate {names : List Utf8.Bytes} (hne : names ≠ [])
    (h : ∀ name ∈ names, slash ∉ name) :
    pieces (f ([slash].intercalate names)) = names.map f := by
  induction names with
  | nil => contradiction
  | cons name names ih =>
    have hname := hslash name (h name List.mem_cons_self)
    cases names with
    | nil =>
      rw [List.intercalate_singleton, pieces_of_not_mem hname]
      rfl
    | cons next names =>
      have hrest := ih (by simp) fun n hn => h n (List.mem_cons_of_mem name hn)
      rw [List.intercalate_cons_cons, List.append_assoc, List.singleton_append, hf]
      rw [pieces_append_cons, pieces_of_not_mem hname, hrest]
      rfl

theorem pieces_map (path : Path) : pieces (f path) = (pieces path).map f := by
  have hpieces := pieces_map_intercalate hf hslash (pieces_ne_nil path)
    fun _ => not_mem_of_mem_pieces
  rwa [intercalate_pieces] at hpieces

end map

theorem pieces_intercalate {names : List Utf8.Bytes} (hne : names ≠ [])
    (h : ∀ name ∈ names, slash ∉ name) : pieces ([slash].intercalate names) = names := by
  have hpieces := pieces_map_intercalate (f := id) (fun _ _ => rfl) (fun _ => id) hne h
  rwa [List.map_id] at hpieces

end pieces

section steps

theorem filterMap_cons_eq_append (f : Utf8.Bytes → Option Step) (piece : Utf8.Bytes)
    (pieces : List Utf8.Bytes) :
    (piece :: pieces).filterMap f = (f piece).toList ++ pieces.filterMap f := by
  rw [List.filterMap_cons]
  cases f piece <;> rfl

theorem steps_go_cons (piece : Utf8.Bytes) {rest : List Utf8.Bytes} (h : rest ≠ []) :
    steps.go (piece :: rest) = (Step.ofInner? piece).toList ++ steps.go rest := by
  obtain ⟨next, rest, rfl⟩ := List.exists_cons_of_ne_nil h
  rw [steps.go]
  · unfold Step.ofInner?
    split <;> rfl
  · simp

theorem steps_go_append (front : List Utf8.Bytes) {back : List Utf8.Bytes} (h : back ≠ []) :
    steps.go (front ++ back) = front.filterMap Step.ofInner? ++ steps.go back := by
  induction front with
  | nil => rfl
  | cons piece front ih =>
    rw [List.cons_append, steps_go_cons piece (List.append_ne_nil_of_right_ne_nil front h), ih]
    rw [← List.append_assoc, filterMap_cons_eq_append]

theorem steps_append_cons (front back : Path) :
    steps (front ++ slash :: back) =
      (pieces front).filterMap Step.ofInner? ++ steps back := by
  unfold steps
  rw [pieces_append_cons, steps_go_append (pieces front) (pieces_ne_nil back)]

theorem steps_go_ne_nil (piece : Utf8.Bytes) (rest : List Utf8.Bytes) :
    steps.go (piece :: rest) ≠ [] := by
  induction rest generalizing piece with
  | nil =>
    unfold steps.go
    split <;> simp
  | cons next rest ih =>
    rw [steps_go_cons piece (by simp)]
    apply List.append_ne_nil_of_right_ne_nil
    exact ih next

theorem steps_ne_nil (path : Path) : steps path ≠ [] := by
  obtain ⟨piece, rest, hpieces⟩ := List.exists_cons_of_ne_nil (pieces_ne_nil path)
  unfold steps
  rw [hpieces]
  exact steps_go_ne_nil piece rest

theorem filter_ofInner? (piece : Utf8.Bytes) :
    (Step.ofInner? piece).toList.filter (· ≠ .stay) = (Step.move? piece).toList := by
  unfold Step.ofInner? Step.move?
  by_cases hempty : piece = []
  · simp [hempty]
  · by_cases hstay : piece = [0x2E]
    · simp [hstay, Step.ofPiece]
    · simp [hempty, hstay, Step.ofPiece_eq_stay_iff]

theorem filter_filterMap_ofInner? (pieces : List Utf8.Bytes) :
    (pieces.filterMap Step.ofInner?).filter (· ≠ .stay) = pieces.filterMap Step.move? := by
  induction pieces with
  | nil => rfl
  | cons piece pieces ih =>
    rw [filterMap_cons_eq_append, List.filter_append, filter_ofInner?, ih]
    rw [filterMap_cons_eq_append]

theorem filter_steps_go (pieces : List Utf8.Bytes) :
    (steps.go pieces).filter (· ≠ .stay) = pieces.filterMap Step.move? := by
  induction pieces with
  | nil => rfl
  | cons piece rest ih =>
    rw [filterMap_cons_eq_append, ← filter_ofInner?]
    cases rest with
    | nil =>
      rw [steps.go]
      unfold Step.ofInner?
      by_cases hempty : piece = []
      · simp [hempty]
      · simp [hempty]
    | cons next rest => rw [steps_go_cons piece (by simp), List.filter_append, ih]

theorem moves_eq_filterMap (path : Path) : moves path = (pieces path).filterMap Step.move? :=
  filter_steps_go (pieces path)

theorem moves_append_cons (front back : Path) :
    moves (front ++ slash :: back) = moves front ++ moves back := by
  rw [moves_eq_filterMap, moves_eq_filterMap, moves_eq_filterMap, pieces_append_cons]
  exact List.filterMap_append

theorem isMove_of_mem_moves {path : Path} {move : Step} (h : move ∈ moves path) :
    move.IsMove := by
  rw [moves_eq_filterMap, List.mem_filterMap] at h
  obtain ⟨piece, hpiece, hmove⟩ := h
  exact Step.isMove_of_move?_eq_some hmove (not_mem_of_mem_pieces hpiece)

end steps

section join

variable {base path : Path}

theorem join_of_isAbsolute (h : path.isAbsolute = true) : join base path = path := by
  unfold join
  rw [if_pos (.inl h)]

theorem steps_join (h : path.isAbsolute = false) :
    steps (join base path) = (pieces base).filterMap Step.ofInner? ++ steps path := by
  unfold join
  split
  · next hcond =>
    have hbase : base = [] := by simpa [h] using hcond
    rw [hbase]
    rfl
  · split
    · next hslash =>
      -- The base ends in an empty piece, which stands for no step.
      obtain ⟨front, rfl⟩ := List.getLast?_eq_some_iff.1 hslash
      rw [List.append_assoc, List.singleton_append, steps_append_cons, pieces_append_cons]
      rw [List.filterMap_append]
      simp [pieces, Step.ofInner?]
    · exact steps_append_cons base path

theorem moves_join (h : path.isAbsolute = false) :
    moves (join base path) = moves base ++ moves path := by
  unfold moves
  rw [steps_join h, List.filter_append, filter_filterMap_ofInner?, ← moves_eq_filterMap]
  rfl

theorem isAbsolute_join (h : path.isAbsolute = false) :
    (join base path).isAbsolute = base.isAbsolute := by
  unfold join
  split
  · next hcond =>
    have hbase : base = [] := by simpa [h] using hcond
    rw [hbase, h]
    rfl
  · next hcond =>
    rw [not_or] at hcond
    obtain ⟨b, base, rfl⟩ := List.exists_cons_of_ne_nil hcond.2
    split <;> rfl

def here (path : Path) : Path := 0x2E :: slash :: path

theorem join_here_ne_nil (base path : Path) : join base (here path) ≠ [] := by
  unfold join here
  split
  · simp
  · split <;> simp

theorem steps_here (path : Path) : steps (here path) = .stay :: steps path :=
  steps_append_cons [0x2E] path

theorem moves_here (path : Path) : moves (here path) = moves path :=
  moves_append_cons [0x2E] path

def SameAs (a b : Path) : Prop := a.isAbsolute = b.isAbsolute ∧ a.moves = b.moves

theorem sameAs_join_here_iff (base path : Path) :
    SameAs (join base (here path)) (join base path) ↔
      (path.isAbsolute = true → base.isAbsolute = true ∧ base.moves = []) := by
  have hhere : isAbsolute (here path) = false := rfl
  unfold SameAs
  rw [isAbsolute_join hhere, moves_join hhere, moves_here]
  cases habsolute : path.isAbsolute with
  | true =>
    rw [join_of_isAbsolute habsolute, habsolute, List.append_left_eq_self]
    simp
  | false =>
    rw [isAbsolute_join habsolute, moves_join habsolute]
    simp

end join

section below

variable {base : Path} {moves below : List Step}

theorem of_below?_eq_some (h : below? base moves = some below) :
    base.isAbsolute = true ∧ Path.moves base ++ below = moves := by
  unfold below? at h
  split at h
  · next hbelow =>
    obtain ⟨rest, rfl⟩ := List.isPrefixOf_iff_prefix.1 hbelow.2
    rw [List.drop_left, Option.some.injEq] at h
    exact ⟨hbelow.1, by rw [h]⟩
  · contradiction

theorem suffix_of_below?_eq_some (h : below? base moves = some below) : below <:+ moves :=
  ⟨Path.moves base, (of_below?_eq_some h).2⟩

theorem below?_eq_none_iff :
    below? base moves = none ↔ ¬(base.isAbsolute = true ∧ Path.moves base <+: moves) := by
  unfold below?
  simp

end below

section ofMoves

variable {moves : List Step}

theorem ofMoves_cons_cons (move next : Step) (moves : List Step) :
    ofMoves (move :: next :: moves) = move.bytes ++ slash :: ofMoves (next :: moves) := by
  unfold ofMoves
  rw [List.map_cons, List.map_cons, List.intercalate_cons_cons, List.append_assoc]
  rfl

theorem ofMoves_singleton (move : Step) : ofMoves [move] = move.bytes := by
  unfold ofMoves
  rw [List.map_singleton, List.intercalate_singleton]

theorem ofMoves_append {front back : List Step} (hfront : front ≠ []) (hback : back ≠ []) :
    ofMoves (front ++ back) = ofMoves front ++ slash :: ofMoves back := by
  induction front with
  | nil => contradiction
  | cons move front ih =>
    by_cases hne : front = []
    · obtain ⟨next, back, rfl⟩ := List.exists_cons_of_ne_nil hback
      rw [hne, ofMoves_singleton]
      exact ofMoves_cons_cons move next back
    · obtain ⟨next, front, rfl⟩ := List.exists_cons_of_ne_nil hne
      have hrest := ih hne
      rw [List.cons_append] at hrest
      rw [List.cons_append, List.cons_append, ofMoves_cons_cons, hrest, ofMoves_cons_cons,
        List.append_assoc, List.cons_append]

theorem pieces_ofMoves (hne : moves ≠ []) (h : ∀ move ∈ moves, move.IsMove) :
    pieces (ofMoves moves) = moves.map Step.bytes := by
  apply pieces_intercalate
  · simpa using hne
  · intro name hname
    obtain ⟨move, hmove, rfl⟩ := List.mem_map.1 hname
    exact Step.slash_not_mem_bytes (h move hmove)

theorem filterMap_move?_bytes (h : ∀ move ∈ moves, move.IsMove) :
    (moves.map Step.bytes).filterMap Step.move? = moves := by
  rw [List.filterMap_map]
  induction moves with
  | nil => rfl
  | cons move moves ih =>
    have hmove : (Step.move? ∘ Step.bytes) move = some move :=
      Step.move?_bytes (h move List.mem_cons_self)
    rw [List.filterMap_cons_some hmove, ih fun m hm => h m (List.mem_cons_of_mem move hm)]

theorem moves_ofMoves (h : ∀ move ∈ moves, move.IsMove) : Path.moves (ofMoves moves) = moves := by
  by_cases hne : moves = []
  · rw [hne]
    rfl
  · rw [moves_eq_filterMap, pieces_ofMoves hne h, filterMap_move?_bytes h]

theorem steps_ofMoves (hne : moves ≠ []) (h : ∀ move ∈ moves, move.IsMove) :
    steps (ofMoves moves) = moves := by
  induction moves with
  | nil => contradiction
  | cons move moves ih =>
    have hmove := h move List.mem_cons_self
    have hbytes := Step.move?_bytes hmove
    unfold Step.move? at hbytes
    split at hbytes
    · contradiction
    · next hbytesNe =>
      injection hbytes with hpiece
      rw [not_or] at hbytesNe
      have hpieces := pieces_of_not_mem (Step.slash_not_mem_bytes hmove)
      cases moves with
      | nil =>
        unfold ofMoves steps
        rw [List.map_singleton, List.intercalate_singleton, hpieces, steps.go]
        rw [if_neg hbytesNe.1, hpiece]
      | cons next moves =>
        have hinner : Step.ofInner? move.bytes = some move := by
          unfold Step.ofInner?
          rw [if_neg hbytesNe.1, hpiece]
        have hrest := ih (by simp) fun m hm => h m (List.mem_cons_of_mem move hm)
        rw [ofMoves_cons_cons, steps_append_cons, hpieces, hrest]
        rw [List.filterMap_cons_some hinner]
        rfl

theorem isAbsolute_ofMoves (h : ∀ move ∈ moves, move.IsMove) :
    isAbsolute (ofMoves moves) = false := by
  by_cases hne : moves = []
  · rw [hne]
    rfl
  · cases habsolute : isAbsolute (ofMoves moves) with
    | false => rfl
    | true =>
      -- An absolute path has an empty first piece, and no move is written so.
      unfold isAbsolute at habsolute
      rw [beq_iff_eq, List.head?_eq_some_iff] at habsolute
      obtain ⟨rest, hrest⟩ := habsolute
      have hpieces := pieces_ofMoves hne h
      rw [hrest, pieces_cons_slash] at hpieces
      obtain ⟨move, moves, rfl⟩ := List.exists_cons_of_ne_nil hne
      rw [List.map_cons, List.cons.injEq] at hpieces
      have hbytes := Step.move?_bytes (h move List.mem_cons_self)
      rw [← hpieces.1] at hbytes
      contradiction

theorem length_ofMoves_filterMap_le (names : List Utf8.Bytes) :
    (ofMoves (names.filterMap Step.move?)).length ≤ ([slash].intercalate names).length := by
  induction names with
  | nil => exact Nat.zero_le _
  | cons name names ih =>
    by_cases hnames : names = []
    · rw [hnames, List.intercalate_singleton]
      cases hmove : Step.move? name with
      | none =>
        rw [List.filterMap_cons_none hmove]
        exact Nat.zero_le _
      | some move =>
        rw [List.filterMap_cons_some hmove, List.filterMap_nil, ofMoves_singleton]
        exact Nat.le_of_eq (congrArg List.length (Step.bytes_of_move?_eq_some hmove))
    · rw [List.intercalate_cons_of_ne_nil hnames, List.append_assoc, List.length_append,
        List.singleton_append, List.length_cons]
      cases hmove : Step.move? name with
      | none =>
        rw [List.filterMap_cons_none hmove]
        omega
      | some move =>
        rw [List.filterMap_cons_some hmove, ← Step.bytes_of_move?_eq_some hmove]
        by_cases hne : names.filterMap Step.move? = []
        · rw [hne, ofMoves_singleton]
          omega
        · rw [← List.singleton_append, ofMoves_append (by simp) hne, ofMoves_singleton,
            List.length_append, List.length_cons]
          omega

theorem length_ofMoves_moves_lt {path : Path} (h : path.isAbsolute = true) :
    (ofMoves path.moves).length < path.length := by
  unfold isAbsolute at h
  rw [beq_iff_eq, List.head?_eq_some_iff] at h
  obtain ⟨rest, rfl⟩ := h
  have hle := length_ofMoves_filterMap_le (pieces rest)
  rw [intercalate_pieces, ← moves_eq_filterMap] at hle
  have hmoves := moves_append_cons [] rest
  rw [List.nil_append] at hmoves
  rw [hmoves, List.length_cons]
  exact Nat.lt_succ_of_le hle

end ofMoves

section length

variable {base path : Path} {name : Name} {front rest : List Step}

theorem isAbsolute_of_isProper (h : Name.IsProper name) : isAbsolute name = false := by
  have habsolute := @isAbsolute_ofMoves [.child name] (List.forall_mem_singleton.2 h)
  rwa [ofMoves_singleton] at habsolute

theorem steps_of_isProper (h : Name.IsProper name) : steps name = [.child name] := by
  have hsteps := @steps_ofMoves [.child name] (by simp) (List.forall_mem_singleton.2 h)
  rwa [ofMoves_singleton] at hsteps

theorem moves_of_isProper (h : Name.IsProper name) : moves name = [.child name] := by
  unfold moves
  rw [steps_of_isProper h]
  rfl

def lengthBefore (base : Path) : Nat :=
  if base = [] then 0 else if base.getLast? = some slash then base.length else base.length + 1

theorem length_join (h : path.isAbsolute = false) :
    (join base path).length = lengthBefore base + path.length := by
  unfold join lengthBefore
  rw [h]
  by_cases hbase : base = []
  · simp [hbase]
  · by_cases hslash : base.getLast? = some slash
    · simp [hbase, hslash]
    · simp [hbase, hslash]
      omega

theorem lengthBefore_join_nil (base : Path) : lengthBefore (join base []) = lengthBefore base := by
  have hnil : isAbsolute [] = false := rfl
  unfold join lengthBefore
  by_cases hbase : base = []
  · simp [hbase]
  · by_cases hslash : base.getLast? = some slash
    · simp [hnil, hbase, hslash]
    · simp [hnil, hbase, hslash]

theorem lengthBefore_le (base : Path) : lengthBefore base ≤ base.length + 1 := by
  unfold lengthBefore
  split
  · exact Nat.zero_le _
  · split
    · exact Nat.le_succ _
    · exact Nat.le_refl _

theorem length_join_join_le (base : Path)
    (h : ∀ move ∈ front ++ .child name :: rest, move.IsMove) :
    (join (join base (ofMoves front)) name).length ≤
      (join base (ofMoves (front ++ .child name :: rest))).length := by
  have hfront := isAbsolute_ofMoves fun move hmove => h move (List.mem_append_left _ hmove)
  have hname : Name.IsProper name := h (.child name) (by simp)
  have hle : name.length ≤ (ofMoves (.child name :: rest)).length := by
    by_cases hrest : rest = []
    · rw [hrest, ofMoves_singleton]
      exact Nat.le_refl _
    · rw [← List.singleton_append, ofMoves_append (by simp) hrest, ofMoves_singleton,
        List.length_append]
      exact Nat.le_add_right _ _
  rw [length_join (isAbsolute_of_isProper hname), length_join (isAbsolute_ofMoves h)]
  by_cases hne : front = []
  · rw [hne]
    have hnil : ofMoves [] = [] := rfl
    rw [hnil, lengthBefore_join_nil, List.nil_append]
    omega
  · have hbefore := lengthBefore_le (join base (ofMoves front))
    rw [length_join hfront] at hbefore
    rw [ofMoves_append hne (by simp), List.length_append, List.length_cons]
    omega

end length

theorem map_eq_of_filterMap_eq {f : Utf8.Bytes → Utf8.Bytes} {names : List Utf8.Bytes}
    (hnames : ∀ name ∈ names, (Step.move? name).isSome = true)
    (h : (names.map f).filterMap Step.move? = names.filterMap Step.move?) :
    names.map f = names := by
  induction names with
  | nil => rfl
  | cons name names ih =>
    have hrest := fun n hn => hnames n (List.mem_cons_of_mem name hn)
    obtain ⟨move, hmove⟩ := Option.isSome_iff_exists.1 (hnames name List.mem_cons_self)
    have hlength := List.filterMap_length_eq_length.2 hrest
    rw [List.map_cons, List.filterMap_cons_some hmove, List.filterMap_cons] at h
    cases hf : Step.move? (f name) with
    | none =>
      -- There are not enough names left to make as many moves.
      rw [hf] at h
      have hlt := List.length_filterMap_le Step.move? (names.map f)
      have := congrArg List.length h
      dsimp only at this
      rw [List.length_cons, hlength] at this
      rw [List.length_map] at hlt
      omega
    | some move' =>
      rw [hf] at h
      dsimp only at h
      injection h with hhead htail
      subst hhead
      rw [List.map_cons, ih hrest htail, ← Step.bytes_of_move?_eq_some hf]
      rw [Step.bytes_of_move?_eq_some hmove]

theorem eq_of_moves_eq {f : Path → Path} (hf : ∀ a b, f (a ++ slash :: b) = f a ++ slash :: f b)
    (hslash : ∀ a, slash ∉ a → slash ∉ f a) (hnil : f [] = []) {moves : List Step}
    (hmoves : ∀ move ∈ moves, move.IsMove) (h : Path.moves (f (ofMoves moves)) = moves) :
    f (ofMoves moves) = ofMoves moves := by
  by_cases hne : moves = []
  · rw [hne]
    exact hnil
  · rw [moves_eq_filterMap, pieces_map hf hslash, pieces_ofMoves hne hmoves] at h
    have hnames : ∀ name ∈ moves.map Step.bytes, (Step.move? name).isSome = true := by
      intro name hname
      obtain ⟨move, hmove, rfl⟩ := List.mem_map.1 hname
      rw [Step.move?_bytes (hmoves move hmove)]
      rfl
    have hsame := map_eq_of_filterMap_eq hnames (h.trans (filterMap_move?_bytes hmoves).symm)
    rw [← pieces_ofMoves hne hmoves, ← pieces_map hf hslash] at hsame
    rw [← intercalate_pieces (f (ofMoves moves)), hsame, intercalate_pieces]

end Path

end Preflight
