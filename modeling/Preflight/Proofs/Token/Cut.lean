import Preflight.Proofs.Token.Lexer

/-!
This module contains the cuts of a command line into words, punctuation and quoted texts with blanks
around them. Every text has exactly one cut, and that is the one that the lexer makes.
-/

namespace Preflight

namespace Lexer

def IsCutOff (w : Text) : Prop := ∃ v, IsWord v ∧ w = v ++ ['\\']

end Lexer

inductive Item where
  | word (text : Text)
  | punctuation (kind : Token.Kind) (c : Char)
  | quoted (quote : Char) (interior : Text)
  | unclosed (quote : Char) (interior : Text)
  deriving DecidableEq

inductive Cut where
  | nil (blanks : Text)
  | cons (blanks : Text) (item : Item) (rest : Cut)

namespace Item

def written : Item → Text
  | word text => text
  | punctuation _ c => [c]
  | quoted quote interior => quote :: interior ++ [quote]
  | unclosed quote interior => quote :: interior

def tokens (loc : Location) : Item → List Token
  | word text => [⟨.word, text, loc⟩]
  | punctuation kind c => [⟨kind, [c], loc⟩]
  | quoted quote interior =>
    [⟨.quote, [quote], loc⟩, ⟨.word, interior, loc.advance quote⟩,
      ⟨.quote, [quote], (loc.advance quote).after interior⟩]
  | unclosed quote interior => [⟨.quote, [quote], loc⟩, ⟨.word, interior, loc.advance quote⟩]

def unterminated? (loc : Location) : Item → Option Token
  | unclosed quote _ => some ⟨.quote, [quote], loc⟩
  | _ => none

/--
White space, quotes and punctuation are escaped in a word, and there is no quote in what it quotes.
-/
def IsProper : Item → Prop
  | word text => text ≠ [] ∧ (Lexer.IsWord text ∨ Lexer.IsCutOff text)
  | punctuation kind c => kind ≠ .quote ∧ c ∈ kind.signs
  | quoted quote interior | unclosed quote interior =>
    quote ∈ Token.Kind.quote.signs ∧ quote ∉ interior

end Item

structure Placed where
  before : Text
  item : Item

namespace Placed

def source (placed : Placed) : Location := Location.start.after placed.before

def tokens (placed : Placed) : List Token := placed.item.tokens placed.source

end Placed

namespace Cut

def text : Cut → Text
  | nil blanks => blanks
  | cons blanks item rest => blanks ++ item.written ++ rest.text

def tokens (loc : Location) : Cut → List Token
  | nil _ => []
  | cons blanks item rest =>
    item.tokens (loc.after blanks) ++ rest.tokens ((loc.after blanks).after item.written)

def unterminated? (loc : Location) : Cut → Option Token
  | nil _ => none
  | cons blanks item rest =>
    (item.unterminated? (loc.after blanks)).or
      (rest.unterminated? ((loc.after blanks).after item.written))

def placed (before : Text) : Cut → List Placed
  | nil _ => []
  | cons blanks item rest =>
    ⟨before ++ blanks, item⟩ :: rest.placed (before ++ blanks ++ item.written)

def startsWithWord : Cut → Bool
  | cons [] (.word _) _ => true
  | _ => false

end Cut

def Item.Precedes (rest : Cut) : Item → Prop
  | word text => rest.startsWithWord = false ∧ (Lexer.IsWord text ∨ rest.text = [])
  | unclosed _ _ => rest.text = []
  | _ => True

namespace Cut

def IsProper : Cut → Prop
  | nil blanks => ∀ c ∈ blanks, c ∈ Text.whiteSpace
  | cons blanks item rest =>
    (∀ c ∈ blanks, c ∈ Text.whiteSpace) ∧ item.IsProper ∧ item.Precedes rest ∧ rest.IsProper

end Cut

namespace Lexer

theorem IsWord.ne_nil_or {w : Text} (h : IsWord w) :
    w = [] ∨ ∃ c v, w = c :: v ∧ endsWord c = false := by
  cases h with
  | nil => exact .inl rfl
  | plain hblank hsign _ _ =>
    exact .inr ⟨_, _, rfl, endsWord_eq_false_iff_notMem.2 ⟨hblank, hsign⟩⟩
  | escaped _ _ => exact .inr ⟨_, _, rfl, endsWord_backslash⟩

theorem IsCutOff.takeWord_eq {w : Text} (h : IsCutOff w) : takeWord w = (w, []) := by
  obtain ⟨v, hv, rfl⟩ := h
  rw [hv.takeWord_append]
  rfl

theorem IsCutOff.cons {c : Char} {w : Text} (hc : endsWord c = false) (hne : c ≠ '\\')
    (h : IsCutOff w) : IsCutOff (c :: w) := by
  obtain ⟨v, hv, rfl⟩ := h
  exact ⟨c :: v, .cons hc hne hv, rfl⟩

theorem IsCutOff.escaped {w : Text} (c : Char) (h : IsCutOff w) : IsCutOff ('\\' :: c :: w) := by
  obtain ⟨v, hv, rfl⟩ := h
  exact ⟨'\\' :: c :: v, .escaped c hv, rfl⟩

theorem isWord_takeWord_or (t : Text) :
    (IsWord (takeWord t).1 ∧ EndsAt (takeWord t).2) ∨
      (IsCutOff (takeWord t).1 ∧ (takeWord t).2 = []) := by
  fun_induction takeWord t with
  | case1 => exact .inl ⟨.nil, by simp [EndsAt]⟩
  | case2 => exact .inr ⟨⟨[], .nil, rfl⟩, rfl⟩
  | case3 c cs word rest heq ih =>
    rw [heq] at ih
    rcases ih with ⟨hword, hends⟩ | ⟨hcutOff, hrest⟩
    · exact .inl ⟨.escaped c hword, hends⟩
    · exact .inr ⟨hcutOff.escaped c, hrest⟩
  | case4 c cs hne hne' hc =>
    refine .inl ⟨.nil, ?_⟩
    intro d hd
    rw [List.head?_cons, Option.mem_some_iff] at hd
    rw [← hd]
    exact hc
  | case5 c cs hne hne' hc word rest heq ih =>
    rw [heq] at ih
    have hplain : c ≠ '\\' := by
      rintro rfl
      cases cs <;> simp_all
    rw [Bool.not_eq_true] at hc
    rcases ih with ⟨hword, hends⟩ | ⟨hcutOff, hrest⟩
    · exact .inl ⟨.cons hc hplain hword, hends⟩
    · exact .inr ⟨hcutOff.cons hc hplain, hrest⟩

theorem isWord_iff {w : Text} : IsWord w ↔ takeWord (w ++ [' ']) = (w, [' ']) := by
  constructor
  · intro h
    rw [h.takeWord_append, takeWord_cons_of_endsWord (by decide), List.append_nil]
  · intro h
    rcases isWord_takeWord_or (w ++ [' ']) with ⟨hword, _⟩ | ⟨_, hrest⟩
    · rwa [h] at hword
    · rw [h] at hrest
      contradiction

instance decidableIsWord (w : Text) : Decidable (IsWord w) := decidable_of_iff' _ isWord_iff

theorem isCutOff_iff {w : Text} :
    IsCutOff w ↔ IsWord w.dropLast ∧ w = w.dropLast ++ ['\\'] := by
  constructor
  · rintro ⟨v, hv, rfl⟩
    rw [List.dropLast_concat]
    exact ⟨hv, rfl⟩
  · rintro ⟨hword, heq⟩
    exact ⟨_, hword, heq⟩

instance decidableIsCutOff (w : Text) : Decidable (IsCutOff w) := decidable_of_iff' _ isCutOff_iff

theorem exists_cons_of_isWord_or {w : Text} (hne : w ≠ []) (h : IsWord w ∨ IsCutOff w) :
    ∃ c v, w = c :: v ∧ endsWord c = false := by
  rcases h with h | ⟨v, hv, rfl⟩
  · exact h.ne_nil_or.resolve_left hne
  · rcases hv.ne_nil_or with rfl | ⟨c, v, rfl, hc⟩
    · exact ⟨'\\', [], rfl, endsWord_backslash⟩
    · exact ⟨c, v ++ ['\\'], rfl, hc⟩

end Lexer

namespace Item

def FitsBefore (rest : Text) : Item → Prop
  | word text => (Lexer.IsWord text ∧ Lexer.EndsAt rest) ∨ (Lexer.IsCutOff text ∧ rest = [])
  | unclosed _ _ => rest = []
  | _ => True

def front? : Text → Option (Item × Text)
  | [] => none
  | c :: cs =>
    if Word.isQuote c then
      match Lexer.takeQuoted c cs with
      | (interior, []) => some (unclosed c interior, [])
      | (interior, _ :: rest) => some (quoted c interior, rest)
    else
      match Token.Kind.ofPunctuation? c with
      | some kind => some (punctuation kind c, cs)
      | none => some (word (Lexer.takeWord (c :: cs)).1, (Lexer.takeWord (c :: cs)).2)

instance decidableIsProper : (item : Item) → Decidable item.IsProper
  | word _ | punctuation _ _ | quoted _ _ | unclosed _ _ => inferInstanceAs (Decidable (_ ∧ _))

instance decidablePrecedes (rest : Cut) : (item : Item) → Decidable (item.Precedes rest)
  | word _ => inferInstanceAs (Decidable (_ ∧ _))
  | unclosed _ _ => inferInstanceAs (Decidable (rest.text = []))
  | punctuation _ _ | quoted _ _ => inferInstanceAs (Decidable True)

theorem IsProper.ofPunctuation?_eq {kind : Token.Kind} {c : Char}
    (h : (punctuation kind c).IsProper) : Token.Kind.ofPunctuation? c = some kind :=
  Token.Kind.ofPunctuation?_eq_some_iff.2 h

theorem IsProper.kind_cases {kind : Token.Kind} {c : Char} (h : (punctuation kind c).IsProper) :
    kind = .bracket ∨ kind = .pipe ∨ kind = .dollar := by
  obtain ⟨hne, hc⟩ := h
  cases kind with
  | word => contradiction
  | quote => contradiction
  | bracket => exact .inl rfl
  | pipe => exact .inr (.inl rfl)
  | dollar => exact .inr (.inr rfl)

theorem exists_written_eq_cons {item : Item} (h : item.IsProper) :
    ∃ c v, item.written = c :: v ∧ Text.isBlank c = false := by
  cases item with
  | word text =>
    obtain ⟨c, v, rfl, hc⟩ := Lexer.exists_cons_of_isWord_or h.1 h.2
    exact ⟨c, v, rfl, (Lexer.endsWord_eq_false_iff.1 hc).1⟩
  | punctuation kind c =>
    exact ⟨c, [], rfl, (Lexer.isQuote_eq_false_of_ofPunctuation? h.ofPunctuation?_eq).1⟩
  | quoted quote interior =>
    exact ⟨quote, _, rfl, Lexer.isBlank_eq_false_of_isQuote (Token.Kind.isQuote_iff.2 h.1)⟩
  | unclosed quote interior =>
    exact ⟨quote, _, rfl, Lexer.isBlank_eq_false_of_isQuote (Token.Kind.isQuote_iff.2 h.1)⟩

theorem FitsBefore.takeWord_append {text rest : Text} (h : (word text).FitsBefore rest) :
    Lexer.takeWord (text ++ rest) = (text, rest) := by
  rcases h with ⟨hword, hends⟩ | ⟨hcutOff, rfl⟩
  · rw [hword.takeWord_append, Lexer.takeWord_of_endsAt hends, List.append_nil]
  · rw [List.append_nil, hcutOff.takeWord_eq]

theorem front?_written_append {item : Item} {rest : Text} (h : item.IsProper)
    (hfits : item.FitsBefore rest) : front? (item.written ++ rest) = some (item, rest) := by
  cases item with
  | word text =>
    have htake := hfits.takeWord_append
    obtain ⟨c, v, rfl, hc⟩ := Lexer.exists_cons_of_isWord_or h.1 h.2
    obtain ⟨_, hquote, hpunctuation⟩ := Lexer.endsWord_eq_false_iff.1 hc
    unfold written front?
    rw [List.cons_append] at htake ⊢
    simp only [hquote, hpunctuation, htake]
    rfl
  | punctuation kind c =>
    have hkind := h.ofPunctuation?_eq
    have hquote := (Lexer.isQuote_eq_false_of_ofPunctuation? hkind).2
    unfold written front?
    rw [List.singleton_append]
    simp only [hquote, hkind]
    rfl
  | quoted quote interior =>
    have hquote := Token.Kind.isQuote_iff.2 h.1
    unfold written front?
    rw [List.append_assoc, List.singleton_append, List.cons_append]
    simp only [hquote, if_true, Lexer.takeQuoted_append_cons h.2]
  | unclosed quote interior =>
    have hrest : rest = [] := hfits
    subst hrest
    have hquote := Token.Kind.isQuote_iff.2 h.1
    unfold written front?
    rw [List.append_nil]
    simp only [hquote, if_true, Lexer.takeQuoted_of_not_mem h.2]

theorem exists_eq_written_append {c : Char} (hc : Text.isBlank c = false) (cs : Text) :
    ∃ item rest, c :: cs = written item ++ rest ∧ item.IsProper ∧ item.FitsBefore rest := by
  cases hquote : Word.isQuote c with
  | true =>
    rw [Token.Kind.isQuote_iff] at hquote
    by_cases hmem : c ∈ cs
    · obtain ⟨interior, rest, rfl, hnot⟩ := List.eq_append_cons_of_mem hmem
      exact ⟨quoted c interior, rest, by simp [written], ⟨hquote, hnot⟩, trivial⟩
    · exact ⟨unclosed c cs, [], by simp [written], ⟨hquote, hmem⟩, rfl⟩
  | false =>
    cases hkind : Token.Kind.ofPunctuation? c with
    | some kind =>
      exact ⟨punctuation kind c, cs, rfl, Token.Kind.ofPunctuation?_eq_some_iff.1 hkind, trivial⟩
    | none =>
      have hends := Lexer.endsWord_eq_false_iff.2 ⟨hc, hquote, hkind⟩
      have htake := Lexer.takeWord_append (c :: cs)
      have hfits := Lexer.isWord_takeWord_or (c :: cs)
      refine ⟨word (Lexer.takeWord (c :: cs)).1, (Lexer.takeWord (c :: cs)).2, htake.symm, ?_,
        hfits⟩
      constructor
      · intro hnil
        have hshorter : (Lexer.takeWord (c :: cs)).2.length < (c :: cs).length :=
          Lexer.length_takeWord_lt hends
        rw [hnil, List.nil_append] at htake
        rw [htake] at hshorter
        omega
      · exact hfits.imp And.left And.left

theorem lexFrom_written_append {item : Item} {rest : Text} (h : item.IsProper)
    (hfits : item.FitsBefore rest) (loc : Location) :
    Lexer.lexFrom loc (item.written ++ rest) =
      ⟨item.tokens loc ++ (Lexer.lexFrom (loc.after item.written) rest).tokens,
        (item.unterminated? loc).or (Lexer.lexFrom (loc.after item.written) rest).unterminated⟩ := by
  cases item with
  | word text =>
    obtain ⟨c, v, rfl, hc⟩ := Lexer.exists_cons_of_isWord_or h.1 h.2
    have htake := hfits.takeWord_append
    unfold written
    rw [List.cons_append] at htake ⊢
    rw [Lexer.lexFrom_word hc, htake]
    rfl
  | punctuation kind c =>
    have hkind := h.ofPunctuation?_eq
    obtain ⟨hblank, hquote⟩ := Lexer.isQuote_eq_false_of_ofPunctuation? hkind
    exact Lexer.lexFrom_punctuation hblank hquote hkind loc rest
  | quoted quote interior =>
    have hloc : loc.after (quote :: interior ++ [quote]) =
        ((loc.advance quote).after interior).advance quote := Location.after_append _ _ _
    unfold written
    have hquote := Token.Kind.isQuote_iff.2 h.1
    rw [List.append_assoc, List.singleton_append, Lexer.lexFrom_closedQuote hquote h.2, hloc]
    rfl
  | unclosed quote interior =>
    have hrest : rest = [] := hfits
    subst hrest
    unfold written
    rw [List.append_nil, Lexer.lexFrom_openQuote (Token.Kind.isQuote_iff.2 h.1) h.2,
      Lexer.lexFrom_nil]
    rfl

theorem exists_eq_unclosed {item : Item} {loc : Location} {token : Token}
    (h : item.unterminated? loc = some token) :
    ∃ quote interior, item = .unclosed quote interior ∧ token = ⟨.quote, [quote], loc⟩ := by
  unfold unterminated? at h
  split at h
  · exact ⟨_, _, rfl, (Option.some.inj h).symm⟩
  · contradiction

end Item

namespace Cut

instance decidableIsProper : (cut : Cut) → Decidable cut.IsProper
  | nil blanks => List.decidableBAll _ blanks
  | cons blanks _ rest =>
    -- There is also an instance that goes along all characters.
    have : Decidable (∀ c ∈ blanks, c ∈ Text.whiteSpace) := List.decidableBAll _ blanks
    have := decidableIsProper rest
    inferInstanceAs (Decidable (_ ∧ _ ∧ _ ∧ _))

theorem endsAt_text_iff {cut : Cut} (h : cut.IsProper) :
    Lexer.EndsAt cut.text ↔ cut.startsWithWord = false := by
  cases cut with
  | nil blanks =>
    refine ⟨fun _ => rfl, fun _ => ?_⟩
    cases blanks with
    | nil => exact Lexer.endsAt_nil
    | cons c blanks =>
      exact Lexer.endsAt_cons_iff.2 (Lexer.endsWord_of_mem_whiteSpace (h c List.mem_cons_self))
  | cons blanks item rest =>
    obtain ⟨hblanks, hitem, _⟩ := h
    cases blanks with
    | cons c blanks =>
      refine ⟨fun _ => rfl, fun _ => ?_⟩
      exact Lexer.endsAt_cons_iff.2 (Lexer.endsWord_of_mem_whiteSpace (hblanks c List.mem_cons_self))
    | nil =>
      cases item with
      | word text =>
        obtain ⟨c, v, rfl, hc⟩ := Lexer.exists_cons_of_isWord_or hitem.1 hitem.2
        refine ⟨fun hends => ?_, fun hstarts => nomatch hstarts⟩
        exact absurd (hc.symm.trans (Lexer.endsAt_cons_iff.1 hends)) Bool.false_ne_true
      | punctuation kind c =>
        refine ⟨fun _ => rfl, fun _ => ?_⟩
        exact Lexer.endsAt_cons_iff.2 (Lexer.endsWord_of_mem_signs hitem.2)
      | quoted quote interior =>
        refine ⟨fun _ => rfl, fun _ => ?_⟩
        exact Lexer.endsAt_cons_iff.2 (Lexer.endsWord_of_mem_signs hitem.1)
      | unclosed quote interior =>
        refine ⟨fun _ => rfl, fun _ => ?_⟩
        exact Lexer.endsAt_cons_iff.2 (Lexer.endsWord_of_mem_signs hitem.1)

theorem fitsBefore_of_precedes {item : Item} {rest : Cut} (hitem : item.IsProper)
    (h : item.Precedes rest) (hrest : rest.IsProper) : item.FitsBefore rest.text := by
  cases item with
  | word text =>
    obtain ⟨hstarts, hword | hnil⟩ := h
    · exact .inl ⟨hword, (endsAt_text_iff hrest).2 hstarts⟩
    · rcases hitem.2 with hword | hcutOff
      · exact .inl ⟨hword, (endsAt_text_iff hrest).2 hstarts⟩
      · exact .inr ⟨hcutOff, hnil⟩
  | punctuation kind c => trivial
  | quoted quote interior => trivial
  | unclosed quote interior => exact h

theorem precedes_of_fitsBefore {item : Item} {rest : Cut} (h : item.FitsBefore rest.text)
    (hrest : rest.IsProper) : item.Precedes rest := by
  cases item with
  | word text =>
    rcases h with ⟨hword, hends⟩ | ⟨_, hnil⟩
    · exact ⟨(endsAt_text_iff hrest).1 hends, .inl hword⟩
    · refine ⟨(endsAt_text_iff hrest).1 ?_, .inr hnil⟩
      rw [hnil]
      exact Lexer.endsAt_nil
  | punctuation kind c => trivial
  | quoted quote interior => trivial
  | unclosed quote interior => exact h

theorem lexFrom_text {cut : Cut} (h : cut.IsProper) (loc : Location) :
    Lexer.lexFrom loc cut.text = ⟨cut.tokens loc, cut.unterminated? loc⟩ := by
  induction cut generalizing loc with
  | nil blanks =>
    have hlex := Lexer.lexFrom_blanks h loc []
    rw [List.append_nil, Lexer.lexFrom_nil] at hlex
    exact hlex
  | cons blanks item rest ih =>
    obtain ⟨hblanks, hitem, hprecedes, hrest⟩ := h
    have hfits := fitsBefore_of_precedes hitem hprecedes hrest
    unfold text
    rw [List.append_assoc, Lexer.lexFrom_blanks hblanks]
    rw [Item.lexFrom_written_append hitem hfits, ih hrest]
    rfl

theorem placed_cons (before blanks : Text) (item : Item) (rest : Cut) :
    (cons blanks item rest).placed before =
      ⟨before ++ blanks, item⟩ :: rest.placed (before ++ blanks ++ item.written) := rfl

theorem tokens_cons (before blanks : Text) (item : Item) (rest : Cut) :
    (cons blanks item rest).tokens (Location.start.after before) =
      Placed.tokens ⟨before ++ blanks, item⟩ ++
        rest.tokens (Location.start.after (before ++ blanks ++ item.written)) := by
  rw [Location.after_append, Location.after_append]
  unfold Placed.tokens Placed.source
  rw [Location.after_append]
  rfl

theorem tokens_after (cut : Cut) (before : Text) :
    cut.tokens (Location.start.after before) = (cut.placed before).flatMap Placed.tokens := by
  induction cut generalizing before with
  | nil blanks => rfl
  | cons blanks item rest ih =>
    rw [tokens_cons, ih]
    rfl

theorem eq_nil_of_text_eq_nil {cut : Cut} (h : cut.IsProper) (htext : cut.text = []) :
    cut = nil [] := by
  cases cut with
  | nil blanks => exact congrArg nil htext
  | cons blanks item rest =>
    obtain ⟨c, v, hwritten, _⟩ := Item.exists_written_eq_cons h.2.1
    unfold text at htext
    rw [hwritten] at htext
    simp at htext

theorem tokens_eq_nil_of_precedes {item : Item} {rest : Cut} (h : item.Precedes rest)
    (hrest : rest.IsProper) (loc : Location) (quote : Char) (interior : Text)
    (hitem : item = .unclosed quote interior) : rest.tokens loc = [] := by
  subst hitem
  rw [eq_nil_of_text_eq_nil hrest h]
  rfl

theorem exists_text_eq_of_mem_placed {cut : Cut} (h : cut.IsProper) {before : Text}
    {placed : Placed} (hmem : placed ∈ cut.placed before) :
    placed.item.IsProper ∧
      ∃ after, before ++ cut.text = placed.before ++ placed.item.written ++ after ∧
        ∀ quote interior, placed.item = .unclosed quote interior → after = [] := by
  induction cut generalizing before with
  | nil blanks => simp [Cut.placed] at hmem
  | cons blanks item rest ih =>
    obtain ⟨_, hitem, hprecedes, hrest⟩ := h
    rw [placed_cons] at hmem
    unfold text
    rcases List.mem_cons.1 hmem with rfl | hmem
    · refine ⟨hitem, rest.text, by simp, ?_⟩
      rintro quote interior rfl
      exact hprecedes
    · have hlater := ih hrest hmem
      rwa [List.append_assoc, List.append_assoc, ← List.append_assoc blanks] at hlater

def afterBlank (c : Char) : Cut → Cut
  | nil blanks => nil (c :: blanks)
  | cons blanks item rest => cons (c :: blanks) item rest

theorem text_afterBlank (c : Char) (cut : Cut) : (cut.afterBlank c).text = c :: cut.text := by
  cases cut <;> rfl

theorem IsProper.afterBlank {cut : Cut} (h : cut.IsProper) {c : Char}
    (hc : c ∈ Text.whiteSpace) : (cut.afterBlank c).IsProper := by
  cases cut with
  | nil blanks => exact List.forall_mem_cons.2 ⟨hc, h⟩
  | cons blanks item rest => exact ⟨List.forall_mem_cons.2 ⟨hc, h.1⟩, h.2⟩

theorem exists_isProper (t : Text) : ∃ cut : Cut, cut.IsProper ∧ cut.text = t := by
  induction hlength : t.length using Nat.strong_induction_on generalizing t with
  | h n ih =>
    cases t with
    | nil => exact ⟨nil [], by simp [IsProper], rfl⟩
    | cons c cs =>
      cases hc : Text.isBlank c with
      | true =>
        obtain ⟨cut, hcut, rfl⟩ := ih cs.length (by simp [← hlength]) cs rfl
        exact ⟨cut.afterBlank c, hcut.afterBlank (Text.isBlank_iff.1 hc), text_afterBlank c cut⟩
      | false =>
        obtain ⟨item, rest, heq, hitem, hfits⟩ := Item.exists_eq_written_append hc cs
        obtain ⟨d, v, hwritten, _⟩ := Item.exists_written_eq_cons hitem
        have hshorter : rest.length < n := by
          rw [← hlength, heq, hwritten, List.length_append, List.length_cons]
          omega
        obtain ⟨cut, hcut, rfl⟩ := ih rest.length hshorter rest rfl
        refine ⟨cons [] item cut, ⟨by simp, hitem, ?_, hcut⟩, heq.symm⟩
        exact precedes_of_fitsBefore hfits hcut

theorem eq_of_blanks_append_eq {a b s t : Text} (ha : ∀ c ∈ a, c ∈ Text.whiteSpace)
    (hb : ∀ c ∈ b, c ∈ Text.whiteSpace) (hs : ∀ c ∈ s.head?, Text.isBlank c = false)
    (ht : ∀ c ∈ t.head?, Text.isBlank c = false) (h : a ++ s = b ++ t) : a = b ∧ s = t := by
  simp only [← Text.isBlank_iff] at ha hb
  have htake : ∀ {u : Text}, (∀ c ∈ u.head?, Text.isBlank c = false) →
      u.takeWhile Text.isBlank = [] := by
    intro u hu
    cases u with
    | nil => rfl
    | cons c u => rw [List.takeWhile_cons_of_neg (by simp [hu c rfl])]
  have hblanks := congrArg (List.takeWhile Text.isBlank) h
  rw [List.takeWhile_append_of_pos ha, List.takeWhile_append_of_pos hb, htake hs, htake ht,
    List.append_nil, List.append_nil] at hblanks
  subst hblanks
  exact ⟨rfl, List.append_cancel_left h⟩

theorem not_isBlank_of_mem_head?_written_append {item : Item} (h : item.IsProper) (t : Text) :
    ∀ c ∈ (item.written ++ t).head?, Text.isBlank c = false := by
  obtain ⟨d, v, hwritten, hd⟩ := Item.exists_written_eq_cons h
  intro c hc
  rw [hwritten, List.cons_append, List.head?_cons, Option.mem_some_iff] at hc
  rw [← hc]
  exact hd

theorem eq_of_text_eq {a b : Cut} (ha : a.IsProper) (hb : b.IsProper) (h : a.text = b.text) :
    a = b := by
  have hnil : ∀ c ∈ ([] : Text).head?, Text.isBlank c = false := by simp
  induction a generalizing b with
  | nil blanks =>
    cases b with
    | nil others => exact congrArg nil h
    | cons others item rest =>
      obtain ⟨d, v, hwritten, _⟩ := Item.exists_written_eq_cons hb.2.1
      have hhead := not_isBlank_of_mem_head?_written_append hb.2.1 rest.text
      unfold text at h
      rw [List.append_assoc, ← List.append_nil blanks] at h
      have hrest := (eq_of_blanks_append_eq ha hb.1 hnil hhead h).2
      rw [hwritten] at hrest
      exact absurd hrest.symm (List.cons_ne_nil _ _)
  | cons blanks item rest ih =>
    obtain ⟨hblanks, hitem, hprecedes, hrest⟩ := ha
    have hhead := not_isBlank_of_mem_head?_written_append hitem rest.text
    cases b with
    | nil others =>
      obtain ⟨d, v, hwritten, _⟩ := Item.exists_written_eq_cons hitem
      unfold text at h
      rw [List.append_assoc, ← List.append_nil others] at h
      have hrest := (eq_of_blanks_append_eq hblanks hb hhead hnil h).2
      rw [hwritten] at hrest
      exact absurd hrest (List.cons_ne_nil _ _)
    | cons others other rest' =>
      obtain ⟨hothers, hother, hprecedes', hrest'⟩ := hb
      have hhead' := not_isBlank_of_mem_head?_written_append hother rest'.text
      unfold text at h
      rw [List.append_assoc, List.append_assoc] at h
      obtain ⟨rfl, hwritten⟩ := eq_of_blanks_append_eq hblanks hothers hhead hhead' h
      -- Both items are the one at the front of what follows the blanks.
      have hfront := Item.front?_written_append hitem
        (fitsBefore_of_precedes hitem hprecedes hrest)
      rw [hwritten, Item.front?_written_append hother
        (fitsBefore_of_precedes hother hprecedes' hrest')] at hfront
      simp only [Option.some.injEq, Prod.mk.injEq] at hfront
      obtain ⟨rfl, htext⟩ := hfront
      rw [ih hrest hrest' htext.symm]

theorem exists_placed_of_unterminated? {cut : Cut} {before : Text} {token : Token}
    (h : cut.unterminated? (Location.start.after before) = some token) :
    ∃ placed ∈ cut.placed before, ∃ quote interior, placed.item = .unclosed quote interior ∧
      token = ⟨.quote, [quote], placed.source⟩ := by
  induction cut generalizing before with
  | nil blanks => contradiction
  | cons blanks item rest ih =>
    unfold unterminated? at h
    rw [← Location.after_append, ← Location.after_append] at h
    rw [placed_cons]
    rcases Option.or_eq_some_iff.1 h with h | ⟨_, h⟩
    · obtain ⟨quote, interior, rfl, rfl⟩ := Item.exists_eq_unclosed h
      exact ⟨_, List.mem_cons_self, quote, interior, rfl, rfl⟩
    · obtain ⟨placed, hmem, hplaced⟩ := ih h
      exact ⟨placed, List.mem_cons_of_mem _ hmem, hplaced⟩

theorem tokenize_text {cut : Cut} (h : cut.IsProper) :
    tokenize cut.text =
      match cut.unterminated? .start with
      | some quote => .error ⟨.unterminatedQuote quote.text, quote.source, 1⟩
      | none => .ok (cut.tokens .start) := by
  unfold tokenize lex
  rw [lexFrom_text h]
  cases cut.unterminated? .start <;> rfl

theorem tokenize_word {word : Text} (hword : Lexer.IsWord word) (hne : word ≠ []) :
    tokenize word = .ok [⟨.word, word, .start⟩] := by
  have hcut : (cons [] (.word word) (nil [])).IsProper :=
    ⟨by simp, ⟨hne, .inl hword⟩, ⟨rfl, .inl hword⟩, by simp [IsProper]⟩
  have htokenize := tokenize_text hcut
  rwa [show (cons [] (.word word) (nil [])).text = word from List.append_nil word] at htokenize

/--
There is one and only one way to cut a text into blanks, words, punctuation and quoted texts, and
the tokens of the text are those of that cut.
-/
theorem existsUnique_cut (t : Text) :
    (∃! cut : Cut, cut.IsProper ∧ cut.text = t) ∧
      ∀ cut : Cut, cut.IsProper → cut.text = t → cut.tokens .start = (lex t).tokens := by
  constructor
  · obtain ⟨cut, hcut, rfl⟩ := exists_isProper t
    refine ⟨cut, ⟨hcut, rfl⟩, ?_⟩
    rintro other ⟨hother, htext⟩
    exact eq_of_text_eq hother hcut htext
  · rintro cut hcut rfl
    unfold lex
    rw [lexFrom_text hcut]

def mixed : Cut :=
  .cons [] (.word ['a', '=']) <| .cons [] (.quoted '\'' ['b', ' ', '"']) <|
  .cons [] (.punctuation .pipe '|') <| .cons ['\n', '\u3000'] (.word ['w', 'c']) <|
  .cons [] (.punctuation .dollar '$') <| .cons [] (.punctuation .bracket '\x7b') <|
  .cons [] (.word ['x', '\\', ' ', 'y']) <| .cons [' '] (.punctuation .bracket ']') <|
  .cons [] (.quoted '\x60' []) <| .cons [] (.unclosed '"' ['\\']) <| .nil []

theorem existsUnique_cut_mixed :
    mixed.IsProper ∧ mixed.text = "a='b \"'|\n\u3000wc$\x7bx\\ y ]\x60\x60\"\\".toList ∧
      (lex "a='b \"'|\n\u3000wc$\x7bx\\ y ]\x60\x60\"\\".toList).tokens =
        [⟨.word, ['a', '='], ⟨0, 0⟩⟩, ⟨.quote, ['\''], ⟨0, 2⟩⟩, ⟨.word, ['b', ' ', '"'], ⟨0, 3⟩⟩,
          ⟨.quote, ['\''], ⟨0, 6⟩⟩, ⟨.pipe, ['|'], ⟨0, 7⟩⟩, ⟨.word, ['w', 'c'], ⟨1, 1⟩⟩,
          ⟨.dollar, ['$'], ⟨1, 3⟩⟩, ⟨.bracket, ['\x7b'], ⟨1, 4⟩⟩,
          ⟨.word, ['x', '\\', ' ', 'y'], ⟨1, 5⟩⟩, ⟨.bracket, [']'], ⟨1, 10⟩⟩,
          ⟨.quote, ['\x60'], ⟨1, 11⟩⟩, ⟨.word, [], ⟨1, 12⟩⟩, ⟨.quote, ['\x60'], ⟨1, 12⟩⟩,
          ⟨.quote, ['"'], ⟨1, 13⟩⟩, ⟨.word, ['\\'], ⟨1, 14⟩⟩] := by
  have hproper : mixed.IsProper := by decide
  exact ⟨hproper, rfl, ((existsUnique_cut _).2 mixed hproper rfl).symm⟩

end Cut

end Preflight
