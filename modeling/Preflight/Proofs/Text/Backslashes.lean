import Mathlib.Algebra.Ring.Parity
import Mathlib.Data.List.DropRight
import Mathlib.Data.List.Induction
import Preflight.Text.Blank

/-!
This module contains how many backslashes stand at the end of a text.
-/

namespace Preflight

namespace Text

def backslashesAtEnd (t : Text) : Nat := (t.rtakeWhile (· == '\\')).length

@[simp]
theorem backslashesAtEnd_concat_backslash (t : Text) :
    backslashesAtEnd (t ++ ['\\']) = backslashesAtEnd t + 1 := by
  unfold backslashesAtEnd
  rw [List.rtakeWhile_concat_pos _ _ _ (by decide), List.length_append]
  rfl

theorem backslashesAtEnd_concat_of_ne (t : Text) {c : Char} (hc : c ≠ '\\') :
    backslashesAtEnd (t ++ [c]) = 0 := by
  unfold backslashesAtEnd
  rw [List.rtakeWhile_concat_neg _ _ _ (by simpa using hc), List.length_nil]

theorem even_backslashesAtEnd_concat_of_ne (t : Text) {c : Char} (hc : c ≠ '\\') :
    Even (backslashesAtEnd (t ++ [c])) := by
  rw [backslashesAtEnd_concat_of_ne t hc]
  decide

theorem even_backslashesAtEnd_append {s t : Text} (hs : Even (backslashesAtEnd s))
    (ht : ∀ c ∈ t, c ≠ '\\') : Even (backslashesAtEnd (s ++ t)) := by
  induction t using List.reverseRecOn with
  | nil => rwa [List.append_nil]
  | append_singleton t c _ =>
    rw [← List.append_assoc]
    exact even_backslashesAtEnd_concat_of_ne _ (ht c (by simp))

theorem backslashesAtEnd_cons_of_ne {c : Char} (hc : c ≠ '\\') (t : Text) :
    backslashesAtEnd (c :: t) = backslashesAtEnd t := by
  induction t using List.reverseRecOn with
  | nil => exact backslashesAtEnd_concat_of_ne [] hc
  | append_singleton t d ih =>
    rw [← List.cons_append]
    by_cases hd : d = '\\'
    · subst hd
      rw [backslashesAtEnd_concat_backslash, backslashesAtEnd_concat_backslash, ih]
    · rw [backslashesAtEnd_concat_of_ne _ hd, backslashesAtEnd_concat_of_ne _ hd]

theorem even_backslashesAtEnd_backslash_cons (c : Char) (t : Text) :
    Even (backslashesAtEnd ('\\' :: c :: t)) ↔ Even (backslashesAtEnd t) := by
  induction t using List.reverseRecOn with
  | nil =>
    change Even (backslashesAtEnd (['\\'] ++ [c])) ↔ Even 0
    by_cases hc : c = '\\'
    · subst hc
      decide
    · rw [backslashesAtEnd_concat_of_ne _ hc]
  | append_singleton t d ih =>
    rw [← List.cons_append, ← List.cons_append]
    by_cases hd : d = '\\'
    · subst hd
      rw [backslashesAtEnd_concat_backslash, backslashesAtEnd_concat_backslash, Nat.even_add_one,
        Nat.even_add_one, ih]
    · rw [backslashesAtEnd_concat_of_ne _ hd, backslashesAtEnd_concat_of_ne _ hd]

end Text

end Preflight
