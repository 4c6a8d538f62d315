import Preflight.Proofs.Balance
import Preflight.Proofs.Token.Cut

/-!
This module contains what the check of the brackets finds in the tokens of a command line: they are
in order, and the quote that is open at the end is the one that the lexer has not seen closed.
-/

namespace Preflight

namespace Item

variable {item : Item} {loc : Location} {token : Token}

theorem not_isBefore_of_mem_tokens (h : token ∈ item.tokens loc) :
    token.source.isBefore loc = false := by
  have hself := Location.not_isBefore_self loc
  have hadvance := fun c => Location.not_isBefore_of_isBefore (Location.isBefore_advance loc c)
  have hafter := fun c t =>
    Location.not_isBefore_trans (Location.not_isBefore_after (loc.advance c) t) (hadvance c)
  cases item with
  | word text => simp_all [tokens]
  | punctuation kind c => simp_all [tokens]
  | quoted quote interior =>
    simp only [tokens, List.mem_cons, List.not_mem_nil, or_false] at h
    rcases h with rfl | rfl | rfl
    · exact hself
    · exact hadvance quote
    · exact hafter quote interior
  | unclosed quote interior =>
    simp only [tokens, List.mem_cons, List.not_mem_nil, or_false] at h
    rcases h with rfl | rfl
    · exact hself
    · exact hadvance quote

theorem exists_eq_punctuation {bracket : Bracket} (h : token ∈ item.tokens loc)
    (hbracket : Bracket.ofToken? token = some bracket) :
    ∃ c, item = .punctuation .bracket c ∧ token = ⟨.bracket, [c], loc⟩ := by
  have hkind := Balance.kind_eq_bracket_of_ofToken? hbracket
  cases item with
  | word text =>
    rw [tokens, List.mem_singleton] at h
    rw [h] at hkind
    contradiction
  | punctuation kind c =>
    rw [tokens, List.mem_singleton] at h
    rw [h] at hkind
    exact ⟨c, congrArg (punctuation · c) hkind, h.trans (congrArg (Token.mk · [c] loc) hkind)⟩
  | quoted quote interior =>
    simp only [tokens, List.mem_cons, List.not_mem_nil, or_false] at h
    rcases h with rfl | rfl | rfl <;> contradiction
  | unclosed quote interior =>
    simp only [tokens, List.mem_cons, List.not_mem_nil, or_false] at h
    rcases h with rfl | rfl <;> contradiction

theorem isIncreasing_tokens (item : Item) (loc : Location) :
    Balance.IsIncreasing (item.tokens loc) := by
  cases item with
  | word text => exact List.pairwise_singleton _ _
  | punctuation kind c => exact List.pairwise_singleton _ _
  | quoted quote interior => simp [Balance.IsIncreasing, tokens, Bracket.ofToken?]
  | unclosed quote interior => simp [Balance.IsIncreasing, tokens, Bracket.ofToken?]

theorem foldl_toggle_tokens (hproper : item.IsProper) :
    (item.tokens loc).foldl Balance.toggle none = item.unterminated? loc := by
  cases item with
  | word text => rfl
  | punctuation kind c =>
    rcases hproper.kind_cases with rfl | rfl | rfl <;> rfl
  | quoted quote interior => simp [tokens, Balance.toggle, unterminated?]
  | unclosed quote interior => simp [tokens, Balance.toggle, unterminated?]

end Item

namespace Cut

variable {cut : Cut}

theorem not_isBefore_of_mem_tokens {loc : Location} {token : Token} (h : token ∈ cut.tokens loc) :
    token.source.isBefore loc = false := by
  induction cut generalizing loc with
  | nil blanks => contradiction
  | cons blanks item rest ih =>
    have hblanks := Location.not_isBefore_after loc blanks
    rcases List.mem_append.1 h with h | h
    · exact Location.not_isBefore_trans (Item.not_isBefore_of_mem_tokens h) hblanks
    · exact Location.not_isBefore_trans (ih h)
        (Location.not_isBefore_trans (Location.not_isBefore_after _ _) hblanks)

theorem isIncreasing_tokens (cut : Cut) (loc : Location) :
    Balance.IsIncreasing (cut.tokens loc) := by
  induction cut generalizing loc with
  | nil blanks => exact List.Pairwise.nil
  | cons blanks item rest ih =>
    refine List.pairwise_append.2 ⟨item.isIncreasing_tokens _, ih _, ?_⟩
    intro token htoken later hlater hbracket _
    obtain ⟨bracket, hbracket⟩ := Option.isSome_iff_exists.1 hbracket
    obtain ⟨c, rfl, rfl⟩ := Item.exists_eq_punctuation htoken hbracket
    exact Location.isBefore_of_isBefore_of_not (Location.isBefore_advance _ c)
      (not_isBefore_of_mem_tokens hlater)

theorem openQuote_tokens (h : cut.IsProper) (loc : Location) :
    Balance.openQuote (cut.tokens loc) = cut.unterminated? loc := by
  unfold Balance.openQuote
  induction cut generalizing loc with
  | nil blanks => rfl
  | cons blanks item rest ih =>
    obtain ⟨_, hitem, hprecedes, hrest⟩ := h
    unfold Cut.tokens Cut.unterminated?
    rw [List.foldl_append, Item.foldl_toggle_tokens hitem]
    cases item with
    | unclosed quote interior =>
      rw [tokens_eq_nil_of_precedes hprecedes hrest _ quote interior rfl]
      rfl
    | word text => exact ih hrest _
    | punctuation kind c => exact ih hrest _
    | quoted quote interior => exact ih hrest _

theorem tokenize_text_eq_ok {cut : Cut} (h : cut.IsProper) {tokens : List Token}
    (hok : tokenize cut.text = .ok tokens) :
    tokens = cut.tokens .start ∧ Balance.openQuote tokens = none := by
  rw [tokenize_text h] at hok
  cases hquote : cut.unterminated? .start with
  | some quote =>
    rw [hquote] at hok
    contradiction
  | none =>
    rw [hquote] at hok
    rw [← Except.ok.inj hok, openQuote_tokens h, hquote]
    exact ⟨rfl, rfl⟩

theorem exists_placed_of_mem_tokens {token : Token} {bracket : Bracket} {before : Text}
    (h : token ∈ cut.tokens (Location.start.after before))
    (hbracket : Bracket.ofToken? token = some bracket) :
    ∃ placed ∈ cut.placed before, ∃ c, placed.item = .punctuation .bracket c ∧
      token = ⟨.bracket, [c], placed.source⟩ := by
  rw [tokens_after] at h
  obtain ⟨placed, hplaced, htoken⟩ := List.mem_flatMap.1 h
  exact ⟨placed, hplaced, Item.exists_eq_punctuation htoken hbracket⟩

end Cut

end Preflight
