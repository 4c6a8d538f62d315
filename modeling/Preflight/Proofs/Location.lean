import Preflight.Location

/-!
This module contains the order of locations, which is that of the characters that stand there.
-/

namespace Preflight

namespace Location

variable {a b c : Location}

theorem isBefore_iff :
    a.isBefore b = true ↔ a.line < b.line ∨ (a.line = b.line ∧ a.column < b.column) := by
  unfold isBefore
  simp

theorem not_isBefore_iff :
    a.isBefore b = false ↔ b.line < a.line ∨ (b.line = a.line ∧ b.column ≤ a.column) := by
  rw [Bool.eq_false_iff, ne_eq, isBefore_iff]
  omega

theorem not_isBefore_self (a : Location) : a.isBefore a = false :=
  not_isBefore_iff.2 (.inr ⟨rfl, Nat.le_refl a.column⟩)

theorem not_isBefore_trans (hab : a.isBefore b = false) (hbc : b.isBefore c = false) :
    a.isBefore c = false := by
  rw [not_isBefore_iff] at *
  omega

theorem not_isBefore_of_isBefore (h : a.isBefore b = true) : b.isBefore a = false := by
  rw [isBefore_iff] at h
  rw [not_isBefore_iff]
  omega

theorem isBefore_of_isBefore_of_not (hab : a.isBefore b = true) (hcb : c.isBefore b = false) :
    a.isBefore c = true := by
  rw [isBefore_iff] at *
  rw [not_isBefore_iff] at hcb
  omega

theorem isBefore_advance (loc : Location) (c : Char) : loc.isBefore (loc.advance c) = true := by
  unfold advance
  rw [isBefore_iff]
  split
  · exact .inl (Nat.lt_succ_self loc.line)
  · exact .inr ⟨rfl, Nat.lt_succ_self loc.column⟩

theorem not_isBefore_after (loc : Location) (t : Text) : (loc.after t).isBefore loc = false := by
  induction t generalizing loc with
  | nil => exact not_isBefore_self loc
  | cons c t ih =>
    exact not_isBefore_trans (ih (loc.advance c))
      (not_isBefore_of_isBefore (isBefore_advance loc c))

theorem isBefore_after (loc : Location) {t : Text} (h : t ≠ []) :
    loc.isBefore (loc.after t) = true := by
  obtain ⟨c, t, rfl⟩ := List.exists_cons_of_ne_nil h
  exact isBefore_of_isBefore_of_not (isBefore_advance loc c) (not_isBefore_after _ t)

end Location

end Preflight
