import Preflight.Proofs.Text.Backslashes
import Preflight.Proofs.Word

/-!
This module contains the laws of taking backslashes away: it undoes every way of putting them in, and
it can be done part by part wherever no backslash belongs to the character behind the cut.
-/

namespace Preflight

namespace Word

theorem IsEscapeOf.even_backslashesAtEnd {s t : Text} (h : IsEscapeOf s t) :
    Even (Text.backslashesAtEnd t) := by
  induction h with
  | nil => decide
  | plain hc _ ih => rwa [Text.backslashesAtEnd_cons_of_ne hc]
  | escaped c _ ih => rwa [Text.even_backslashesAtEnd_backslash_cons]

theorem isEscapeOf_copyUnescaped {t : Text} (h : Even (Text.backslashesAtEnd t)) :
    IsEscapeOf (copyUnescaped t) t := by
  fun_induction copyUnescaped t with
  | case1 => exact .nil
  | case2 =>
    -- A backslash with nothing behind it is one at the end.
    contradiction
  | case3 c cs ih =>
    rw [Text.even_backslashesAtEnd_backslash_cons] at h
    exact .escaped c (ih h)
  | case4 c cs hend hc ih =>
    have hne : c ≠ '\\' := by
      rintro rfl
      cases cs <;> simp_all
    rw [Text.backslashesAtEnd_cons_of_ne hne] at h
    exact .plain hne (ih h)

theorem isEscapeOf_iff {s t : Text} :
    IsEscapeOf s t ↔ unescape t = s ∧ Even (Text.backslashesAtEnd t) := by
  constructor
  · intro h
    exact ⟨h.unescape_eq, h.even_backslashesAtEnd⟩
  · rintro ⟨rfl, heven⟩
    rw [unescape_eq_copyUnescaped]
    exact isEscapeOf_copyUnescaped heven

theorem IsEscapeOf.unescape_append {s t : Text} (h : IsEscapeOf s t) (rest : Text) :
    unescape (t ++ rest) = s ++ unescape rest := by
  induction h with
  | nil => rfl
  | plain hc _ ih => rw [List.cons_append, unescape_cons hc, ih, List.cons_append]
  | escaped c _ ih =>
    rw [List.cons_append, List.cons_append, unescape_backslash_cons, ih, List.cons_append]

/--
Taking backslashes away undoes every way of putting one in front of each backslash and of any other
characters, and what has no lone backslash at its end has come about in such a way. A word can be cut
behind an even number of backslashes, and it does not matter whether it is copied.
-/
theorem unescape_inverts_and_distributes :
    (∀ s t, IsEscapeOf s t ↔ unescape t = s ∧ Even (Text.backslashesAtEnd t)) ∧
    (∀ a b, Even (Text.backslashesAtEnd a) → unescape (a ++ b) = unescape a ++ unescape b) ∧
    (∀ t, unescape t = copyUnescaped t) ∧ ∀ t, '\\' ∉ t → unescape t = t := by
  refine ⟨fun s t => isEscapeOf_iff, ?_, unescape_eq_copyUnescaped, ?_⟩
  · intro a b heven
    exact (isEscapeOf_iff.2 ⟨rfl, heven⟩).unescape_append b
  · intro t hmem
    exact unescape_eq_self_of_not_mem hmem

theorem unescape_inverts_and_distributes_fourBackslashes :
    Even (Text.backslashesAtEnd ['a', '\\', '\\']) ∧ '\\' ∉ ['a', 'b'] ∧
      unescape (['a', '\\', '\\'] ++ ['\\', '\\', 'b', '\\']) = ['a', '\\'] ++ ['\\', 'b'] ∧
      unescape ['a', 'b'] = ['a', 'b'] := by
  obtain ⟨_, happend, _, hplain⟩ := unescape_inverts_and_distributes
  have heven : Even (Text.backslashesAtEnd ['a', '\\', '\\']) := by decide
  have hmem : '\\' ∉ ['a', 'b'] := by simp
  exact ⟨heven, hmem, happend _ _ heven, hplain _ hmem⟩

end Word

end Preflight
