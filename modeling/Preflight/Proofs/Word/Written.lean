import Preflight.Proofs.Token.Lexer
import Preflight.Proofs.Word

/-!
This module contains how texts are written as a single word, and what the lexer and the parser take
such words for.
-/

namespace Preflight

namespace Word

def isPlainChar (c : Char) : Bool :=
  isLetter c || isDigit c || c == '_' || c == '.' || c == '-'

def isPlainCommand : Text → Bool
  | [] => false
  | c :: cs => c != '-' && (c :: cs).all isPlainChar

def isSpecial (c : Char) : Bool :=
  Text.isBlank c || isQuote c || c == '(' || c == ')' || c == '\x7b' || c == '\x7d' || c == '['
    || c == ']' || c == '|' || c == '$' || c == '\\'

def escape (t : Text) : Text := escapeWhere isSpecial t

def double (t : Text) : Text := escapeWhere (· == '\\') t

theorem unescape_escape (t : Text) : unescape (escape t) = t := unescape_escapeWhere (by decide) t

theorem unescape_double (t : Text) : unescape (double t) = t := unescape_escapeWhere (by decide) t

theorem toNat_lt_of_isPlainChar {c : Char} (h : isPlainChar c = true) : c.toNat < 128 := by
  unfold isPlainChar isLetter isDigit at h
  simp only [Bool.or_eq_true, Bool.and_eq_true, decide_eq_true_eq, beq_iff_eq, Char.le_def,
    UInt32.le_iff_toNat_le] at h
  have hval : c.toNat = c.val.toNat := rfl
  rcases h with ((((h | h) | h) | rfl) | rfl) | rfl
  · simp at h
    omega
  · simp at h
    omega
  · simp at h
    omega
  · decide
  · decide
  · decide

theorem isSpecial_of_isPlainChar {c : Char} (h : isPlainChar c = true) :
    isSpecial c = false ∧ c ≠ '=' ∧ c ≠ '/' := by
  have hall : ∀ n < 128, isPlainChar (Char.ofNat n) = true →
      isSpecial (Char.ofNat n) = false ∧ Char.ofNat n ≠ '=' ∧ Char.ofNat n ≠ '/' := by
    decide
  have := hall c.toNat (toNat_lt_of_isPlainChar h)
  rw [Char.ofNat_toNat] at this
  exact this h

theorem endsWord_of_isSpecial_eq_false {c : Char} (h : isSpecial c = false) :
    Lexer.endsWord c = false ∧ c ≠ '\\' := by
  unfold isSpecial at h
  unfold Lexer.endsWord Token.Kind.ofPunctuation?
  simp_all

theorem isWord_escape (t : Text) : Lexer.IsWord (escape t) := by
  unfold escape
  induction t with
  | nil => exact .nil
  | cons c t ih =>
    cases hc : isSpecial c with
    | true =>
      rw [escapeWhere_cons_of_pos hc]
      exact .escaped c ih
    | false =>
      rw [escapeWhere_cons_of_neg hc]
      have hplain := endsWord_of_isSpecial_eq_false hc
      exact .cons hplain.1 hplain.2 ih

theorem isWord_of_all_isPlainChar {t : Text} (h : ∀ c ∈ t, isPlainChar c = true) :
    Lexer.IsWord t := by
  apply Lexer.isWord_of_plain
  intro c hc
  exact endsWord_of_isSpecial_eq_false (isSpecial_of_isPlainChar (h c hc)).1

theorem isPlainChar_of_mem_variableName {name : Text} (h : isVariableName name = true) {c : Char}
    (hc : c ∈ name) : isPlainChar c = true := by
  cases name with
  | nil => simp at hc
  | cons d ds =>
    unfold isVariableName at h
    unfold isPlainChar
    simp only [Bool.and_eq_true, Bool.or_eq_true, List.all_eq_true] at h ⊢
    rcases List.mem_cons.1 hc with rfl | hc
    · rcases h.1 with h | h <;> simp [h]
    · rcases h.2 c hc with (h | h) | h <;> simp [h]

theorem isPlainChar_of_mem_plainCommand {name : Text} (h : isPlainCommand name = true) {c : Char}
    (hc : c ∈ name) : isPlainChar c = true := by
  cases name with
  | nil => simp at hc
  | cons d ds =>
    unfold isPlainCommand at h
    rw [Bool.and_eq_true, List.all_eq_true] at h
    exact h.2 c hc

theorem splitAssignment_append {name : Text} (h : '=' ∉ name) (value : Text) :
    splitAssignment (name ++ '=' :: value) = some (name, value) := by
  induction name with
  | nil => rfl
  | cons c name ih =>
    simp only [List.mem_cons, not_or] at h
    rw [List.cons_append, splitAssignment.eq_def]
    split
    · contradiction
    · simp_all
    · next heq =>
      simp only [List.cons.injEq] at heq
      obtain ⟨rfl, rfl⟩ := heq
      rw [ih h.2]
      rfl

theorem splitAssignment_eq_none {t : Text} (h : '=' ∉ t) : splitAssignment t = none := by
  induction t with
  | nil => rfl
  | cons c t ih =>
    simp only [List.mem_cons, not_or] at h
    rw [splitAssignment.eq_def]
    split
    · rfl
    · simp_all
    · next heq =>
      simp only [List.cons.injEq] at heq
      obtain ⟨rfl, rfl⟩ := heq
      rw [ih h.2]
      rfl

theorem areCommandChars_of_all {t : Text} (h : ∀ c ∈ t, isPlainChar c = true) (slashes : Bool)
    (escaped : Bool) : areCommandChars slashes escaped t = true := by
  induction t generalizing escaped with
  | nil => rfl
  | cons c t ih =>
    have hc : isCommandChar c = true := by
      have := h c List.mem_cons_self
      unfold isPlainChar at this
      unfold isCommandChar
      rw [this]
      rfl
    unfold areCommandChars
    rw [hc, ih fun d hd => h d (List.mem_cons_of_mem c hd)]
    rfl

theorem isLocal_of_isPlainCommand {name : Text} (h : isPlainCommand name = true) :
    isLocal name = false := by
  apply isLocal_of_not_mem
  intro hmem
  have hplain := isPlainChar_of_mem_plainCommand h hmem
  exact (isSpecial_of_isPlainChar hplain).2.2 rfl

theorem isCommand_of_isPlainCommand {name : Text} (h : isPlainCommand name = true) :
    isCommand name = true := by
  have hlocal := isLocal_of_isPlainCommand h
  have hall := fun c => isPlainChar_of_mem_plainCommand h (c := c)
  unfold isCommand
  split
  · simp [isLocal] at hlocal
  · unfold isPlainCommand at h
    unfold isCommandBody
    split
    · contradiction
    · rw [Bool.and_eq_true] at h ⊢
      exact ⟨h.1, areCommandChars_of_all hall _ _⟩

theorem isArgument_escape {t : Text} (h : isArgument t = true) : isArgument (escape t) = true := by
  cases t with
  | nil => contradiction
  | cons c t =>
    have hplain : isPlainChar c = true := by
      unfold isArgument at h
      unfold isPlainChar
      simp only [Bool.or_eq_true] at h ⊢
      rcases h with (h | h) | h <;> simp [h]
    unfold escape
    rw [escapeWhere_cons_of_neg (isSpecial_of_isPlainChar hplain).1]
    exact h

end Word

end Preflight
