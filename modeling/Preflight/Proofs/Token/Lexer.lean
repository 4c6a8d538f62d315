import Mathlib.Data.List.TakeWhile
import Preflight.Token.Lexer

/-!
This module contains what the lexer does with each of the things that a text can start with.
-/

namespace Preflight

namespace Lexed

@[simp]
theorem after_tokens (front : List Token) (lexed : Lexed) :
    (lexed.after front).tokens = front ++ lexed.tokens := rfl

@[simp]
theorem after_unterminated (front : List Token) (lexed : Lexed) :
    (lexed.after front).unterminated = lexed.unterminated := rfl

end Lexed

namespace Text

def whiteSpace : List Char :=
  ['\t', '\n', '\x0b', '\x0c', '\r', ' ', '\u0085', '\u00a0', '\u1680', '\u2000', '\u2001',
    '\u2002', '\u2003', '\u2004', '\u2005', '\u2006', '\u2007', '\u2008', '\u2009', '\u200a',
    '\u2028', '\u2029', '\u202f', '\u205f', '\u3000']

theorem mem_whiteSpace_of_le (first last : Nat) {c : Char} (hfirst : first ≤ c.toNat)
    (hlast : c.toNat ≤ last)
    (h : ∀ i < last + 1 - first, Char.ofNat (first + i) ∈ whiteSpace) : c ∈ whiteSpace := by
  have hmem := h (c.toNat - first) (by omega)
  rwa [Nat.add_sub_cancel' hfirst, Char.ofNat_toNat] at hmem

theorem isBlank_iff {c : Char} : isBlank c = true ↔ c ∈ whiteSpace := by
  constructor
  · intro h
    unfold isBlank at h
    simp only [Bool.or_eq_true, Bool.and_eq_true, decide_eq_true_eq, beq_iff_eq] at h
    obtain (((((((((⟨hfirst, hlast⟩ | rfl) | rfl) | rfl) | rfl) | ⟨hfirst, hlast⟩) | rfl) | rfl) |
      rfl) | rfl) | rfl := h
    · exact mem_whiteSpace_of_le 0x09 0x0D hfirst hlast (by decide)
    iterate 4 · decide
    · exact mem_whiteSpace_of_le 0x2000 0x200A hfirst hlast (by decide)
    iterate 5 · decide
  · have hall : whiteSpace.all isBlank = true := by decide
    exact List.all_eq_true.1 hall c

end Text

namespace Token.Kind

def signs : Kind → List Char
  | word => []
  | bracket => ['(', ')', '\x7b', '\x7d', '[', ']']
  | quote => ['\'', '"', '\x60']
  | pipe => ['|']
  | dollar => ['$']

theorem isQuote_iff {c : Char} : Word.isQuote c = true ↔ c ∈ quote.signs := by
  unfold Word.isQuote signs
  simp [or_assoc]

theorem ofPunctuation?_eq_some_iff {c : Char} {kind : Kind} :
    ofPunctuation? c = some kind ↔ kind ≠ quote ∧ c ∈ kind.signs := by
  constructor
  · intro h
    unfold ofPunctuation? at h
    simp only [Bool.or_eq_true, beq_iff_eq] at h
    split at h
    · next hc =>
      cases h
      exact ⟨by decide, by simpa [signs, or_assoc] using hc⟩
    · split at h
      · next hc =>
        cases h
        exact ⟨by decide, by simpa [signs] using hc⟩
      · split at h
        · next hc =>
          cases h
          exact ⟨by decide, by simpa [signs] using hc⟩
        · contradiction
  · have hall : ∀ kind ∈ [word, bracket, pipe, dollar],
        kind.signs.all (fun c => decide (ofPunctuation? c = some kind)) = true := by
      decide
    rintro ⟨hne, hc⟩
    cases kind with
    | quote => contradiction
    | _ => exact of_decide_eq_true (List.all_eq_true.1 (hall _ (by decide)) c hc)

theorem ne_of_mem_signs {c : Char} {kind : Kind} (h : c ∈ kind.signs) :
    c ≠ '\\' ∧ c ≠ '\n' ∧ c ≠ '\r' ∧ c ≠ '\x1b' := by
  refine ⟨?_, ?_, ?_, ?_⟩ <;>
  · rintro rfl
    cases kind <;> exact absurd h (by decide)

end Token.Kind

namespace Lexer

inductive IsWord : Text → Prop where
  | nil : IsWord []
  | plain {c : Char} {w : Text} (hblank : c ∉ Text.whiteSpace)
    (hsign : ∀ kind : Token.Kind, c ∉ kind.signs) (hne : c ≠ '\\') (h : IsWord w) : IsWord (c :: w)
  | escaped (c : Char) {w : Text} (h : IsWord w) : IsWord ('\\' :: c :: w)

theorem endsWord_eq_false_iff {c : Char} :
    endsWord c = false ↔
      Text.isBlank c = false ∧ Word.isQuote c = false ∧ Token.Kind.ofPunctuation? c = none := by
  unfold endsWord
  simp [and_assoc]

theorem endsWord_eq_false_iff_notMem {c : Char} :
    endsWord c = false ↔ c ∉ Text.whiteSpace ∧ ∀ kind : Token.Kind, c ∉ kind.signs := by
  rw [endsWord_eq_false_iff, Bool.eq_false_iff, Bool.eq_false_iff, ne_eq, ne_eq, Text.isBlank_iff,
    Token.Kind.isQuote_iff, Option.eq_none_iff_forall_ne_some]
  simp only [ne_eq, Token.Kind.ofPunctuation?_eq_some_iff, not_and]
  refine and_congr_right fun _ => ⟨?_, fun hsign => ⟨hsign .quote, fun kind _ => hsign kind⟩⟩
  rintro ⟨hquote, hsign⟩ kind
  by_cases hkind : kind = .quote
  · rwa [hkind]
  · exact hsign kind hkind

theorem IsWord.cons {c : Char} {w : Text} (hc : endsWord c = false) (hne : c ≠ '\\')
    (h : IsWord w) : IsWord (c :: w) :=
  .plain (endsWord_eq_false_iff_notMem.1 hc).1 (endsWord_eq_false_iff_notMem.1 hc).2 hne h

theorem isQuote_eq_false_of_ofPunctuation? {c : Char} {kind : Token.Kind}
    (h : Token.Kind.ofPunctuation? c = some kind) :
    Text.isBlank c = false ∧ Word.isQuote c = false := by
  obtain ⟨hne, hc⟩ := Token.Kind.ofPunctuation?_eq_some_iff.1 h
  have hall : ∀ kind ∈ [Token.Kind.word, .bracket, .pipe, .dollar],
      kind.signs.all (fun c => decide (Text.isBlank c = false ∧ Word.isQuote c = false)) = true := by
    decide
  cases kind with
  | quote => contradiction
  | _ => exact of_decide_eq_true (List.all_eq_true.1 (hall _ (by decide)) c hc)

theorem isBlank_eq_false_of_isQuote {c : Char} (h : Word.isQuote c = true) :
    Text.isBlank c = false := by
  unfold Word.isQuote at h
  simp only [Bool.or_eq_true, beq_iff_eq] at h
  rcases h with (rfl | rfl) | rfl <;> decide

theorem endsWord_eq_true_iff {c : Char} :
    endsWord c = true ↔ c ∈ Text.whiteSpace ∨ ∃ kind : Token.Kind, c ∈ kind.signs := by
  rw [← Bool.not_eq_false, endsWord_eq_false_iff_notMem, not_and_or, not_not, not_forall_not]

theorem endsWord_of_mem_whiteSpace {c : Char} (h : c ∈ Text.whiteSpace) : endsWord c = true :=
  endsWord_eq_true_iff.2 (.inl h)

theorem endsWord_of_mem_signs {c : Char} {kind : Token.Kind} (h : c ∈ kind.signs) :
    endsWord c = true :=
  endsWord_eq_true_iff.2 (.inr ⟨kind, h⟩)

theorem endsWord_backslash : endsWord '\\' = false := by decide

theorem takeWord_cons_of_endsWord {c : Char} (hc : endsWord c = true) (t : Text) :
    takeWord (c :: t) = ([], c :: t) := by
  have hne : c ≠ '\\' := by
    rintro rfl
    rw [endsWord_backslash] at hc
    contradiction
  rw [takeWord.eq_def]
  split <;> simp_all

theorem takeWord_cons_of_plain {c : Char} (hc : endsWord c = false) (hne : c ≠ '\\') (t : Text) :
    takeWord (c :: t) = (c :: (takeWord t).1, (takeWord t).2) := by
  rw [takeWord.eq_def]
  simp only
  split <;> simp_all

@[simp]
theorem takeWord_backslash_cons (c : Char) (t : Text) :
    takeWord ('\\' :: c :: t) = ('\\' :: c :: (takeWord t).1, (takeWord t).2) := by
  rw [takeWord.eq_def]
  simp only

theorem IsWord.takeWord_append {w : Text} (h : IsWord w) (t : Text) :
    takeWord (w ++ t) = (w ++ (takeWord t).1, (takeWord t).2) := by
  induction h with
  | nil => rfl
  | plain hblank hsign hne _ ih =>
    rw [List.cons_append,
      takeWord_cons_of_plain (endsWord_eq_false_iff_notMem.2 ⟨hblank, hsign⟩) hne, ih]
    rfl
  | escaped c _ ih =>
    rw [List.cons_append, List.cons_append, takeWord_backslash_cons, ih]
    rfl

theorem IsWord.append {v w : Text} (hv : IsWord v) (hw : IsWord w) : IsWord (v ++ w) := by
  induction hv with
  | nil => exact hw
  | plain hblank hsign hne _ ih => exact .plain hblank hsign hne ih
  | escaped c _ ih => exact .escaped c ih

theorem isWord_of_plain {w : Text} (h : ∀ c ∈ w, endsWord c = false ∧ c ≠ '\\') : IsWord w := by
  induction w with
  | nil => exact .nil
  | cons c w ih =>
    apply IsWord.cons
    · exact (h c List.mem_cons_self).1
    · exact (h c List.mem_cons_self).2
    · exact ih fun d hd => h d (List.mem_cons_of_mem c hd)

theorem takeQuoted_append_cons {quote : Char} {interior : Text} (h : quote ∉ interior) (t : Text) :
    takeQuoted quote (interior ++ quote :: t) = (interior, quote :: t) := by
  unfold takeQuoted
  have hall : ∀ c ∈ interior, (c != quote) = true := by
    intro c hc
    simp only [bne_iff_ne, ne_eq]
    rintro rfl
    contradiction
  rw [List.takeWhile_append_of_pos hall, List.dropWhile_append_of_pos hall]
  simp

theorem takeQuoted_of_not_mem {quote : Char} {interior : Text} (h : quote ∉ interior) :
    takeQuoted quote interior = (interior, []) := by
  unfold takeQuoted
  have hall : ∀ c ∈ interior, (c != quote) = true := by
    intro c hc
    simp only [bne_iff_ne, ne_eq]
    rintro rfl
    contradiction
  rw [List.takeWhile_eq_self_iff.2 hall, List.dropWhile_eq_nil_iff.2 hall]

@[simp]
theorem lexFrom_nil (loc : Location) : lexFrom loc [] = ⟨[], none⟩ := by
  rw [lexFrom]

theorem lexFrom_blank {c : Char} (hc : Text.isBlank c = true) (loc : Location) (t : Text) :
    lexFrom loc (c :: t) = lexFrom (loc.advance c) t := by
  rw [lexFrom, dif_pos hc]

theorem lexFrom_punctuation {c : Char} {kind : Token.Kind} (hb : Text.isBlank c = false)
    (hq : Word.isQuote c = false) (hc : Token.Kind.ofPunctuation? c = some kind) (loc : Location)
    (t : Text) :
    lexFrom loc (c :: t) = (lexFrom (loc.advance c) t).after [⟨kind, [c], loc⟩] := by
  rw [lexFrom, dif_neg (by simp [hb]), dif_neg (by simp [hq])]
  split <;> simp_all

theorem lexFrom_word {c : Char} (hc : endsWord c = false) (loc : Location) (t : Text) :
    lexFrom loc (c :: t) =
      (lexFrom (loc.after (takeWord (c :: t)).1) (takeWord (c :: t)).2).after
        [⟨.word, (takeWord (c :: t)).1, loc⟩] := by
  obtain ⟨hb, hq, hp⟩ := endsWord_eq_false_iff.1 hc
  rw [lexFrom, dif_neg (by simp [hb]), dif_neg (by simp [hq])]
  split <;> simp_all

theorem lexFrom_closedQuote {quote : Char} {interior : Text} (hq : Word.isQuote quote = true)
    (h : quote ∉ interior) (loc : Location) (t : Text) :
    lexFrom loc (quote :: interior ++ quote :: t) =
      (lexFrom (((loc.advance quote).after interior).advance quote) t).after
        [⟨.quote, [quote], loc⟩, ⟨.word, interior, loc.advance quote⟩,
          ⟨.quote, [quote], (loc.advance quote).after interior⟩] := by
  have hb := isBlank_eq_false_of_isQuote hq
  rw [List.cons_append, lexFrom, dif_neg (by simp [hb]), dif_pos hq]
  split
  · next heq =>
    rw [takeQuoted_append_cons h] at heq
    simp at heq
  · next heq =>
    rw [takeQuoted_append_cons h] at heq
    simp only [Prod.mk.injEq, List.cons.injEq] at heq
    obtain ⟨rfl, rfl, rfl⟩ := heq
    rfl

theorem lexFrom_openQuote {quote : Char} {interior : Text} (hq : Word.isQuote quote = true)
    (h : quote ∉ interior) (loc : Location) :
    lexFrom loc (quote :: interior) =
      ⟨[⟨.quote, [quote], loc⟩, ⟨.word, interior, loc.advance quote⟩],
        some ⟨.quote, [quote], loc⟩⟩ := by
  have hb := isBlank_eq_false_of_isQuote hq
  rw [lexFrom, dif_neg (by simp [hb]), dif_pos hq]
  split
  · next heq =>
    rw [takeQuoted_of_not_mem h] at heq
    simp only [Prod.mk.injEq, and_true] at heq
    rw [heq]
  · next heq =>
    rw [takeQuoted_of_not_mem h] at heq
    simp at heq

theorem lexFrom_blanks {blanks : Text} (h : ∀ c ∈ blanks, c ∈ Text.whiteSpace) (loc : Location)
    (t : Text) : lexFrom loc (blanks ++ t) = lexFrom (loc.after blanks) t := by
  induction blanks generalizing loc with
  | nil => rfl
  | cons c blanks ih =>
    rw [List.cons_append, lexFrom_blank (Text.isBlank_iff.2 (h c List.mem_cons_self))]
    exact ih (fun d hd => h d (List.mem_cons_of_mem c hd)) _

def EndsAt (t : Text) : Prop := ∀ c ∈ t.head?, endsWord c = true

theorem endsAt_nil : EndsAt [] := by
  simp [EndsAt]

theorem endsAt_cons_iff {c : Char} {t : Text} : EndsAt (c :: t) ↔ endsWord c = true := by
  simp [EndsAt]

theorem takeWord_of_endsAt {t : Text} (h : EndsAt t) : takeWord t = ([], t) := by
  cases t with
  | nil => rfl
  | cons c t => exact takeWord_cons_of_endsWord (h c rfl) t

theorem IsWord.lexFrom_append {w t : Text} (h : IsWord w) (hne : w ≠ []) (ht : EndsAt t)
    (loc : Location) :
    lexFrom loc (w ++ t) = (lexFrom (loc.after w) t).after [⟨.word, w, loc⟩] := by
  have htake : takeWord (w ++ t) = (w, t) := by
    rw [h.takeWord_append, takeWord_of_endsAt ht, List.append_nil]
  obtain ⟨c, v, rfl⟩ := List.exists_cons_of_ne_nil hne
  have hc : endsWord c = false := by
    cases h with
    | plain hblank hsign _ _ => exact endsWord_eq_false_iff_notMem.2 ⟨hblank, hsign⟩
    | escaped _ _ => exact endsWord_backslash
  rw [List.cons_append] at htake ⊢
  rw [lexFrom_word hc, htake]

end Lexer

end Preflight
