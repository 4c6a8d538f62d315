import Preflight.Text.Blank

/-!
This module contains what the words of a text are: the pieces between its blanks.
-/

namespace Preflight

namespace Text

inductive HasWords : Text → List Text → Prop where
  | nil : HasWords [] []
  | blank {c : Char} {t : Text} {ws : List Text} (hc : isBlank c = true) (h : HasWords t ws) :
    HasWords (c :: t) ws
  | word {w t : Text} {ws : List Text} (hne : w ≠ []) (hw : ∀ c ∈ w, isBlank c = false)
    (hend : ∀ c ∈ t.head?, isBlank c = true) (h : HasWords t ws) : HasWords (w ++ t) (w :: ws)

theorem HasWords.flush {word rest : Text} {ws : List Text} (hword : ∀ c ∈ word, isBlank c = false)
    (hrest : ∀ c ∈ rest.head?, isBlank c = true) (h : HasWords rest ws) :
    HasWords (word ++ rest) (words.flush word ++ ws) := by
  cases word with
  | nil => exact h
  | cons c word => exact .word (List.cons_ne_nil c word) hword hrest h

theorem hasWords_go (t : Text) {word : Text} (hword : ∀ c ∈ word, isBlank c = false) :
    HasWords (word ++ t) (words.go t word) := by
  induction t generalizing word with
  | nil =>
    rw [words.go, ← List.append_nil (words.flush word)]
    exact HasWords.nil.flush hword (by simp)
  | cons c t ih =>
    rw [words.go]
    split
    · next hc => exact ((ih (List.forall_mem_nil _)).blank hc).flush hword (by simpa using hc)
    · next hc =>
      rw [← List.singleton_append, ← List.append_assoc]
      apply ih
      rw [List.forall_mem_append]
      exact ⟨hword, by simpa using hc⟩

theorem go_append {w : Text} (hw : ∀ c ∈ w, isBlank c = false) (t word : Text) :
    words.go (w ++ t) word = words.go t (word ++ w) := by
  induction w generalizing word with
  | nil => simp
  | cons c w ih =>
    rw [List.forall_mem_cons] at hw
    rw [List.cons_append, words.go, hw.1, if_neg (by simp), ih hw.2, List.append_assoc,
      List.singleton_append]

theorem go_of_head?_isBlank {t : Text} (ht : ∀ c ∈ t.head?, isBlank c = true) (word : Text) :
    words.go t word = words.flush word ++ words t := by
  cases t with
  | nil => simp [words, words.go, words.flush]
  | cons c t =>
    have hc : isBlank c = true := ht c rfl
    rw [words, words.go, words.go, if_pos hc, if_pos hc]
    rfl

theorem hasWords_iff {t : Text} {ws : List Text} : HasWords t ws ↔ words t = ws := by
  constructor
  · intro h
    induction h with
    | nil => rfl
    | blank hc _ ih =>
      rw [← ih, words, words.go, if_pos hc]
      rfl
    | word hne hw hend _ ih =>
      rw [words, go_append hw, go_of_head?_isBlank hend, ih, words.flush]
      simp [hne]
  · rintro rfl
    exact hasWords_go t (List.forall_mem_nil _)

end Text

end Preflight
