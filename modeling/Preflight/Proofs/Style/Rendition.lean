import Preflight.Proofs.Text.Quoted
import Preflight.Style.Color

/-!
This module contains what the escape sequences for colors are made of: the numbers by which terminals
know attributes and colors.
-/

namespace Preflight

namespace Style

def rendition (numbers : List Nat) : Text :=
  '\x1b' :: '[' :: [';'].intercalate (numbers.map (Nat.toDigits 10)) ++ ['m']

theorem reset_eq : reset = rendition [0, 0, 0] := rfl

theorem resetAttributes_eq : resetAttributes = rendition [22, 24, 25, 27] := rfl

theorem intercalate_append_cons (c : Char) (front : List Text) (t : Text) (back : List Text) :
    [c].intercalate (front ++ t :: back) =
      front.flatMap (· ++ [c]) ++ [c].intercalate (t :: back) := by
  induction front with
  | nil => rfl
  | cons s front ih =>
    have hne : front ++ t :: back ≠ [] := by simp
    rw [List.cons_append, List.intercalate_cons_of_ne_nil hne, ih, List.flatMap_cons]
    simp only [List.append_assoc]

end Style

namespace Color

def numbers (target : Nat) (color : Color) : List Nat :=
  (if color.attributes.bold then [1] else []) ++ (if color.attributes.dim then [2] else [])
    ++ (if color.attributes.underline then [4] else [])
    ++ (if color.attributes.blink then [5] else [])
    ++ (if color.attributes.reverse then [7] else [])
    ++ [target, 2, color.red.toNat, color.green.toNat, color.blue.toNat]

theorem map_code_toList (set : Attributes) :
    set.toList.map Attribute.code =
      (if set.bold then [1] else []) ++ (if set.dim then [2] else [])
        ++ (if set.underline then [4] else []) ++ (if set.blink then [5] else [])
        ++ (if set.reverse then [7] else []) := by
  obtain ⟨bold, dim, underline, blink, reverse⟩ := set
  cases bold <;> cases dim <;> cases underline <;> cases blink <;> cases reverse <;> rfl

theorem sequence_eq (color : Color) (target : Nat) :
    color.sequence target = Style.rendition (color.numbers target) := by
  unfold sequence Style.rendition numbers
  rw [← map_code_toList, List.map_append, List.map_cons, Style.intercalate_append_cons]
  simp only [List.map_map, List.flatMap_map, Text.decimal_eq_toDigits, List.map_cons, List.map_nil,
    List.intercalate_cons_cons, List.intercalate_singleton, Function.comp_def]
  simp [Style.introducer, Nat.toDigits_of_lt_base]

def ink (color : Color) : Text := Style.rendition (color.numbers 38)

def paper (color : Color) : Text := Style.rendition (color.numbers 48)

theorem foreground_eq_ink (color : Color) : color.foreground = color.ink := color.sequence_eq 38

theorem background_eq_paper (color : Color) : color.background = color.paper := color.sequence_eq 48

end Color

end Preflight
