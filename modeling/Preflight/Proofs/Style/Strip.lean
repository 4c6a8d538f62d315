import Preflight.Style.Color
import Preflight.Word

/-!
This module contains what is left of a text when its escape sequences are taken out, as it has to be
done to see where the characters of a colored text stand.
-/

namespace Preflight

namespace Style

def strip (t : Text) : Text :=
  go false t
where
  go : Bool → Text → Text
    | _, [] => []
    | true, c :: cs => go (!Word.isLetter c) cs
    | false, c :: cs => if c = '\x1b' then go true cs else c :: go false cs

def IsInline (t : Text) : Prop := ∀ c ∈ t, c ≠ '\x1b' ∧ c ≠ '\n'

instance (t : Text) : Decidable (IsInline t) := List.decidableBAll _ t

/--
Of `t`, just `shown` is seen, and `t` does not end within an escape sequence: what comes after it is
seen as if it stood alone.
-/
def Shows (t shown : Text) : Prop := ∀ rest, strip (t ++ rest) = shown ++ strip rest

section IsInline

variable {s t : Text}

theorem isInline_append : IsInline (s ++ t) ↔ IsInline s ∧ IsInline t := List.forall_mem_append

theorem isInline_cons {c : Char} :
    IsInline (c :: t) ↔ (c ≠ '\x1b' ∧ c ≠ '\n') ∧ IsInline t := List.forall_mem_cons

theorem isInline_replicate {c : Char} (hc : c ≠ '\x1b' ∧ c ≠ '\n') (n : Nat) :
    IsInline (List.replicate n c) :=
  fun _ hmem => (List.eq_of_mem_replicate hmem).symm ▸ hc

theorem isInline_decimal (n : Nat) : IsInline (Text.decimal n) := by
  intro c hmem
  have := Text.isDigit_of_mem_decimal hmem
  constructor <;> rintro rfl <;> contradiction

end IsInline

section Shows

variable {s t a b : Text}

theorem Shows.strip_eq (h : Shows t a) : strip t = a := by
  have := h []
  rwa [List.append_nil, show strip [] = [] from rfl, List.append_nil] at this

theorem Shows.append (hs : Shows s a) (ht : Shows t b) : Shows (s ++ t) (a ++ b) := by
  intro rest
  rw [List.append_assoc, hs, ht, List.append_assoc]

theorem Shows.hide_append (hs : Shows s []) (ht : Shows t b) : Shows (s ++ t) b :=
  hs.append ht

theorem Shows.append_hide (hs : Shows s a) (ht : Shows t []) : Shows (s ++ t) a := by
  have := hs.append ht
  rwa [List.append_nil] at this

theorem Shows.flatMap {α : Type} {l : List α} {f g : α → Text} (h : ∀ x ∈ l, Shows (f x) (g x)) :
    Shows (l.flatMap f) (l.flatMap g) := by
  induction l with
  | nil => exact fun _ => rfl
  | cons x l ih =>
    rw [List.forall_mem_cons] at h
    rw [List.flatMap_cons, List.flatMap_cons]
    exact h.1.append (ih h.2)

theorem Shows.cons {c : Char} (hc : c ≠ '\x1b') (h : Shows t a) : Shows (c :: t) (c :: a) := by
  intro rest
  rw [List.cons_append, strip, strip.go, if_neg hc]
  exact congrArg (c :: ·) (h rest)

theorem shows_newline : Shows ['\n'] ['\n'] := fun _ => rfl

theorem IsInline.shows (h : IsInline t) : Shows t t := by
  induction t with
  | nil => exact fun _ => rfl
  | cons c t ih =>
    rw [isInline_cons] at h
    exact (ih h.2).cons h.1.1

theorem shows_escape (h : ∀ c ∈ t, Word.isLetter c = false) {last : Char}
    (hlast : Word.isLetter last = true) : Shows ('\x1b' :: t ++ [last]) [] := by
  intro rest
  have hgo : strip.go true (t ++ last :: rest) = strip rest := by
    induction t with
    | nil =>
      rw [List.nil_append, strip.go, hlast]
      rfl
    | cons c t ih =>
      rw [List.forall_mem_cons] at h
      rw [List.cons_append, strip.go, h.1]
      exact ih h.2
  rw [List.append_assoc]
  exact hgo

example : strip "a\x1b[1;7mb".toList = ['a', 'b'] := by decide

theorem shows_reset : Shows reset [] := fun _ => rfl

theorem shows_resetAttributes : Shows resetAttributes [] := fun _ => rfl

theorem isLetter_of_mem_decimal {n : Nat} {c : Char} (h : c ∈ Text.decimal n) :
    Word.isLetter c = false := by
  have := Text.isDigit_of_mem_decimal h
  grind [Char.isDigit, Word.isLetter, Char.le_def]

theorem shows_sequence (color : Color) (target : Nat) : Shows (color.sequence target) [] := by
  have hdecimal (n : Nat) : ∀ c ∈ Text.decimal n, Word.isLetter c = false :=
    fun _ => isLetter_of_mem_decimal
  have hattributes : ∀ c ∈ color.attributes.toList.flatMap
      (fun a => Text.decimal a.code ++ [';']), Word.isLetter c = false := by
    simp only [List.forall_mem_flatMap, List.forall_mem_append, List.forall_mem_singleton]
    exact fun a _ => ⟨hdecimal a.code, rfl⟩
  have hbody : ∀ c ∈ '[' :: (color.attributes.toList.flatMap (fun a => Text.decimal a.code ++ [';'])
      ++ Text.decimal target ++ [';', '2', ';'] ++ Text.decimal color.red.toNat
      ++ ';' :: Text.decimal color.green.toNat ++ ';' :: Text.decimal color.blue.toNat),
      Word.isLetter c = false := by
    simp only [List.forall_mem_cons, List.forall_mem_append]
    exact ⟨rfl, ⟨⟨⟨⟨hattributes, hdecimal _⟩, rfl, rfl, rfl, List.forall_mem_nil _⟩, hdecimal _⟩,
      rfl, hdecimal _⟩, rfl, hdecimal _⟩
  unfold Color.sequence
  exact shows_escape hbody (by decide)

end Shows

end Style

end Preflight
