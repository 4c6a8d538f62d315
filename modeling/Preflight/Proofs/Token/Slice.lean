import Preflight.Proofs.Location
import Preflight.Proofs.Text.Lines
import Preflight.Proofs.Token.Cut

/-!
This module contains where the tokens of a command line stand: each of them is a slice of the text,
and its location is what there is to count in front of that slice.
-/

namespace Preflight

structure Slice where
  kind : Token.Kind
  before : Text
  text : Text

namespace Slice

def source (slice : Slice) : Location :=
  ⟨Text.lineBreaks slice.before, (Text.lastLine slice.before).length⟩

def token (slice : Slice) : Token := ⟨slice.kind, slice.text, slice.source⟩

end Slice

def Item.slices (before : Text) : Item → List Slice
  | word text => [⟨.word, before, text⟩]
  | punctuation kind c => [⟨kind, before, [c]⟩]
  | quoted quote interior =>
    [⟨.quote, before, [quote]⟩, ⟨.word, before ++ [quote], interior⟩,
      ⟨.quote, before ++ quote :: interior, [quote]⟩]
  | unclosed quote interior =>
    [⟨.quote, before, [quote]⟩, ⟨.word, before ++ [quote], interior⟩]

def Placed.slices (placed : Placed) : List Slice := placed.item.slices placed.before

namespace Cut

def slices (cut : Cut) : List Slice := (cut.placed []).flatMap Placed.slices

def IsInOrder (cut : Cut) (a b : Token) : Prop :=
  b.source.isBefore a.source = false ∧
    (a.source = b.source → ∃ placed ∈ cut.placed [], ∃ quote opening,
      placed.item = .quoted quote [] ∧ placed.tokens = [opening, a, b])

structure Locates (cut : Cut) (tokens : List Token) : Prop where
  eq_map : tokens = cut.slices.map Slice.token
  isPrefix : ∀ slice ∈ cut.slices, slice.before ++ slice.text <+: cut.text
  pairwise_isPrefix : cut.slices.Pairwise fun a b => a.before ++ a.text <+: b.before
  fits : ∀ token ∈ tokens,
    token.source.line ≤ Location.lastColumn ∧ token.source.column ≤ Location.lastColumn
  isInOrder : tokens.Pairwise cut.IsInOrder

end Cut

namespace Slice

variable {slice a b : Slice}

theorem source_eq (slice : Slice) : slice.source = Location.start.after slice.before :=
  (Location.start_after slice.before).symm

theorem source_le {t : Text} (h : slice.before <+: t) :
    slice.source.line ≤ t.length ∧ slice.source.column ≤ t.length := by
  have hline : slice.source.line ≤ slice.before.length := List.count_le_length
  have hcolumn : slice.source.column ≤ slice.before.length :=
    (List.rtakeWhile_suffix _ slice.before).length_le
  have hlength := h.length_le
  omega

theorem isBefore_source (h : a.before <+: b.before) :
    b.source.isBefore a.source = false ∧ (a.source = b.source → a.before = b.before) := by
  obtain ⟨rest, hrest⟩ := h
  have hsource : b.source = a.source.after rest := by
    rw [source_eq, source_eq, ← hrest, Location.after_append]
  rw [hsource, ← hrest]
  refine ⟨Location.not_isBefore_after _ rest, fun heq => ?_⟩
  by_contra hne
  have hbefore := Location.isBefore_after a.source fun hnil : rest = [] => hne (by simp [hnil])
  rw [← heq, Location.not_isBefore_self] at hbefore
  contradiction

end Slice

namespace Placed

variable (placed : Placed)

theorem tokens_eq_map_slices : placed.tokens = placed.slices.map Slice.token := by
  obtain ⟨before, item⟩ := placed
  unfold tokens slices source
  cases item <;>
    simp [Item.tokens, Item.slices, Slice.token, Slice.source_eq, Location.after_append]

theorem isPrefix_of_mem_slices {slice : Slice} (h : slice ∈ placed.slices) :
    placed.before <+: slice.before ∧
      slice.before ++ slice.text <+: placed.before ++ placed.item.written := by
  obtain ⟨before, item⟩ := placed
  unfold slices Item.slices at h
  cases item with
  | word text =>
    rw [List.mem_singleton.1 h]
    exact ⟨List.prefix_refl _, List.prefix_refl _⟩
  | punctuation kind c =>
    rw [List.mem_singleton.1 h]
    exact ⟨List.prefix_refl _, List.prefix_refl _⟩
  | quoted quote interior =>
    simp only [List.mem_cons, List.not_mem_nil, or_false] at h
    rcases h with rfl | rfl | rfl <;> simp [Item.written]
  | unclosed quote interior =>
    simp only [List.mem_cons, List.not_mem_nil, or_false] at h
    rcases h with rfl | rfl <;> simp [Item.written]

theorem length_before_lt {slice : Slice} (h : slice ∈ placed.slices)
    (hproper : placed.item.IsProper)
    (hclosed : ∀ quote interior, placed.item ≠ .unclosed quote interior) :
    slice.before.length < (placed.before ++ placed.item.written).length := by
  obtain ⟨before, item⟩ := placed
  unfold slices Item.slices at h
  cases item with
  | word text =>
    have hpos := List.length_pos_iff.2 hproper.1
    rw [List.mem_singleton.1 h]
    simpa [Item.written] using hpos
  | punctuation kind c =>
    rw [List.mem_singleton.1 h]
    simp [Item.written]
  | quoted quote interior =>
    simp only [List.mem_cons, List.not_mem_nil, or_false] at h
    rcases h with rfl | rfl | rfl <;> simp [Item.written]
  | unclosed quote interior => exact absurd rfl (hclosed quote interior)

theorem pairwise_slices :
    placed.slices.Pairwise fun a b => a.before ++ a.text <+: b.before ∧
      (a.before = b.before → ∃ quote opening,
        placed.item = .quoted quote [] ∧ placed.tokens = [opening, a.token, b.token]) := by
  rw [tokens_eq_map_slices]
  obtain ⟨before, item⟩ := placed
  unfold slices Item.slices
  cases item with
  | word text => exact List.pairwise_singleton _ _
  | punctuation kind c => exact List.pairwise_singleton _ _
  | quoted quote interior => simp +contextual
  | unclosed quote interior => simp

end Placed

namespace Cut

theorem pairwise_placed {cut : Cut} (h : cut.IsProper) (before : Text) :
    (∀ placed ∈ cut.placed before, before <+: placed.before) ∧
      (cut.placed before).Pairwise fun a b => a.before ++ a.item.written <+: b.before ∧
        ∀ quote interior, a.item ≠ .unclosed quote interior := by
  induction cut generalizing before with
  | nil blanks => exact ⟨by simp [placed], .nil⟩
  | cons blanks item rest ih =>
    obtain ⟨_, _, hprecedes, hrest⟩ := h
    obtain ⟨hbehind, hpairwise⟩ := ih hrest (before ++ blanks ++ item.written)
    rw [placed_cons]
    refine ⟨List.forall_mem_cons.2 ⟨List.prefix_append _ _, ?_⟩,
      List.pairwise_cons.2 ⟨?_, hpairwise⟩⟩
    · intro placed hplaced
      have := hbehind placed hplaced
      rw [List.append_assoc] at this
      exact (List.prefix_append _ _).trans this
    · intro placed hplaced
      refine ⟨hbehind placed hplaced, ?_⟩
      rintro quote interior rfl
      rw [eq_nil_of_text_eq_nil hrest hprecedes] at hplaced
      simp [Cut.placed] at hplaced

section slices

variable {cut : Cut} (h : cut.IsProper)

theorem tokens_eq_map_slices (cut : Cut) : cut.tokens .start = cut.slices.map Slice.token := by
  have htokens := tokens_after cut []
  unfold slices
  rw [List.map_flatMap]
  exact htokens.trans (List.flatMap_congr fun placed _ => placed.tokens_eq_map_slices)

include h

theorem isPrefix_of_mem_slices {slice : Slice} (hslice : slice ∈ cut.slices) :
    slice.before ++ slice.text <+: cut.text := by
  obtain ⟨placed, hplaced, hmem⟩ := List.mem_flatMap.1 hslice
  obtain ⟨_, after, htext, _⟩ := exists_text_eq_of_mem_placed h hplaced
  rw [List.nil_append] at htext
  rw [htext]
  exact (placed.isPrefix_of_mem_slices hmem).2.trans (List.prefix_append _ _)

theorem pairwise_slices :
    cut.slices.Pairwise fun a b => a.before ++ a.text <+: b.before ∧
      (a.before = b.before → ∃ placed ∈ cut.placed [], ∃ quote opening,
        placed.item = .quoted quote [] ∧ placed.tokens = [opening, a.token, b.token]) := by
  unfold slices
  rw [List.pairwise_flatMap]
  constructor
  · intro placed hplaced
    exact placed.pairwise_slices.imp fun hab => ⟨hab.1, fun heq => ⟨placed, hplaced, hab.2 heq⟩⟩
  · apply (pairwise_placed h []).2.imp_of_mem
    rintro x y hx hy ⟨hbehind, hclosed⟩ a ha b hb
    have hproper := (exists_text_eq_of_mem_placed h hx).1
    have hfront := (x.isPrefix_of_mem_slices ha).2.trans
      (hbehind.trans (y.isPrefix_of_mem_slices hb).1)
    refine ⟨hfront, fun heq => ?_⟩
    have hlt := x.length_before_lt ha hproper hclosed
    have hle := (hbehind.trans (y.isPrefix_of_mem_slices hb).1).length_le
    rw [heq] at hlt
    omega

end slices

/--
Whatever stands in front of a token, be it quoted line feeds, escaped ones or characters of any
width, its location is that of the slice that it is, and different tokens have different locations
but for an empty text between two quotes.
-/
theorem locates_lex {t : Text} (ht : t.length ≤ Location.lastColumn) :
    ∃ cut : Cut, cut.IsProper ∧ cut.text = t ∧ cut.Locates (lex t).tokens := by
  obtain ⟨cut, hcut, rfl⟩ := exists_isProper t
  have htokens : (lex cut.text).tokens = cut.slices.map Slice.token := by
    unfold lex
    rw [lexFrom_text hcut]
    exact tokens_eq_map_slices cut
  refine ⟨cut, hcut, rfl, ?_⟩
  constructor
  case eq_map => exact htokens
  case isPrefix => exact fun slice => isPrefix_of_mem_slices hcut
  case pairwise_isPrefix => exact (pairwise_slices hcut).imp And.left
  case fits =>
    intro token htoken
    rw [htokens] at htoken
    obtain ⟨slice, hslice, rfl⟩ := List.mem_map.1 htoken
    have hfront := (List.prefix_append _ _).trans (isPrefix_of_mem_slices hcut hslice)
    obtain ⟨hline, hcolumn⟩ := Slice.source_le hfront
    exact ⟨hline.trans ht, hcolumn.trans ht⟩
  case isInOrder =>
    rw [htokens, List.pairwise_map]
    apply (pairwise_slices hcut).imp
    rintro a b ⟨hbehind, hshared⟩
    obtain ⟨hnot, hinjective⟩ := Slice.isBefore_source ((List.prefix_append _ _).trans hbehind)
    exact ⟨hnot, fun heq => hshared (hinjective heq)⟩

def scattered : Text := ['é', '\\', '\n', 'b', '\'', '\n', 'x', '\'', '"', '"']

theorem locates_lex_scattered :
    scattered.length ≤ Location.lastColumn ∧
      ∃ cut : Cut, cut.IsProper ∧ cut.text = scattered ∧ cut.Locates (lex scattered).tokens :=
  ⟨by decide, locates_lex (by decide)⟩

end Cut

end Preflight
