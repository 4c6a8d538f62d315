import Mathlib.Data.List.DropRight
import Preflight.Location
import Preflight.Text.Lines

/-!
This module contains how the lines of a text and the locations in it go together: a location that is
counted one character at a time is a line and a column of the text that is cut into lines.
-/

namespace Preflight

namespace Text

def lastLine (t : Text) : Text := t.rtakeWhile (· != '\n')

def lineBreaks (t : Text) : Nat := t.count '\n'

section lastLine

variable (t : Text) {c : Char}

theorem lastLine_concat_of_ne (h : c ≠ '\n') : lastLine (t ++ [c]) = lastLine t ++ [c] :=
  List.rtakeWhile_concat_pos _ _ _ (bne_iff_ne.2 h)

theorem lastLine_concat_newline : lastLine (t ++ ['\n']) = [] :=
  List.rtakeWhile_concat_neg _ _ _ (by decide)

theorem lineBreaks_concat_of_ne (h : c ≠ '\n') : lineBreaks (t ++ [c]) = lineBreaks t := by
  unfold lineBreaks
  rw [List.count_append, List.count_singleton]
  simp [h]

theorem lineBreaks_concat_newline : lineBreaks (t ++ ['\n']) = lineBreaks t + 1 := by
  unfold lineBreaks
  rw [List.count_append, List.count_singleton_self]

theorem lastLine_append {stretch : Text} (h : '\n' ∉ stretch) :
    lastLine (t ++ stretch) = lastLine t ++ stretch := by
  induction stretch using List.reverseRecOn with
  | nil => simp
  | append_singleton stretch c ih =>
    rw [List.mem_append, not_or, List.mem_singleton] at h
    rw [← List.append_assoc, lastLine_concat_of_ne _ (Ne.symm h.2), ih h.1, List.append_assoc]

theorem lineBreaks_append {stretch : Text} (h : '\n' ∉ stretch) :
    lineBreaks (t ++ stretch) = lineBreaks t := by
  unfold lineBreaks
  rw [List.count_append, List.count_eq_zero_of_not_mem h, Nat.add_zero]

end lastLine

end Text

namespace Location

theorem start_after (t : Text) :
    start.after t = ⟨Text.lineBreaks t, (Text.lastLine t).length⟩ := by
  induction t using List.reverseRecOn with
  | nil => rfl
  | append_singleton t c ih =>
    rw [after_concat, ih]
    unfold advance
    by_cases hc : c = '\n'
    · rw [if_pos hc, hc, Text.lastLine_concat_newline, Text.lineBreaks_concat_newline]
      rfl
    · rw [if_neg hc, Text.lastLine_concat_of_ne t hc, Text.lineBreaks_concat_of_ne t hc]
      simp

end Location

namespace Text

theorem exists_lines_append_eq (front back : Text) :
    ∃ ended, ended.length = lineBreaks front ∧
      lines (front ++ back) = ended ++ lines.go back (lastLine front).reverse := by
  induction front using List.reverseRecOn generalizing back with
  | nil => exact ⟨[], rfl, rfl⟩
  | append_singleton front c ih =>
    obtain ⟨ended, hlength, hlines⟩ := ih (c :: back)
    rw [List.append_assoc, List.singleton_append, hlines, lines.go]
    by_cases hc : c = '\n'
    · refine ⟨ended ++ [(lines.withoutReturn (lastLine front).reverse).reverse], ?_, ?_⟩
      · rw [hc, lineBreaks_concat_newline, List.length_append, hlength]
        rfl
      · rw [if_pos hc, hc, lastLine_concat_newline, List.append_assoc]
        rfl
    · refine ⟨ended, ?_, ?_⟩
      · rw [lineBreaks_concat_of_ne front hc, hlength]
      · rw [if_neg hc, lastLine_concat_of_ne front hc, List.reverse_append]
        rfl

theorem exists_go_eq_cons {line : Text} {c : Char} (hc : c ≠ '\r') (t later : Text) :
    ∃ tail rest, lines.go t (later ++ c :: line) = ((c :: line).reverse ++ tail) :: rest := by
  induction t generalizing later with
  | nil =>
    refine ⟨later.reverse, [], ?_⟩
    rw [lines.go, if_neg (by simp), List.reverse_append]
  | cons d t ih =>
    rw [lines.go]
    by_cases hd : d = '\n'
    · rw [if_pos hd]
      cases later with
      | nil =>
        refine ⟨[], lines.go t [], ?_⟩
        unfold lines.withoutReturn
        split
        · next heq => exact absurd (List.cons.inj heq).1 hc
        · rw [List.append_nil]
          rfl
      | cons e later =>
        by_cases he : e = '\r'
        · refine ⟨later.reverse, lines.go t [], ?_⟩
          rw [he, ← List.reverse_append]
          rfl
        · refine ⟨(e :: later).reverse, lines.go t [], ?_⟩
          unfold lines.withoutReturn
          split
          · next heq => exact absurd (List.cons.inj heq).1 he
          · rw [← List.reverse_append]
    · rw [if_neg hd]
      exact ih (d :: later)

section stretch

variable {before stretch : Text} (hne : stretch ≠ []) (hline : ∀ c ∈ stretch, c ≠ '\n' ∧ c ≠ '\r')
include hne hline

theorem exists_lines_eq (after : Text) :
    ∃ ended tail rest, ended.length = lineBreaks before ∧
      lines (before ++ stretch ++ after) =
        ended ++ (lastLine before ++ stretch ++ tail) :: rest := by
  have hnewline : '\n' ∉ stretch := fun hmem => (hline '\n' hmem).1 rfl
  obtain ⟨ended, hlength, hlines⟩ := exists_lines_append_eq (before ++ stretch) after
  rw [lastLine_append before hnewline] at hlines
  rw [lineBreaks_append before hnewline] at hlength
  obtain rfl | ⟨initial, last, rfl⟩ := List.eq_nil_or_concat stretch
  · contradiction
  · have hlast : last ≠ '\r' := (hline last (by simp)).2
    obtain ⟨tail, rest, hgo⟩ :=
      @exists_go_eq_cons (lastLine before ++ initial).reverse last hlast after []
    have hread : last :: (lastLine before ++ initial).reverse =
        (lastLine before ++ initial.concat last).reverse := by
      simp
    rw [List.nil_append, hread, List.reverse_reverse] at hgo
    exact ⟨ended, tail, rest, hlength, by rw [hlines, hgo]⟩

end stretch

section numberedLines

variable {t line : Text}

theorem withoutReturn_subset (line : Text) : lines.withoutReturn line ⊆ line := by
  unfold lines.withoutReturn
  split
  · exact List.subset_cons_self _ _
  · exact List.Subset.refl _

theorem forall_mem_go {p : Char → Prop} (t front : Text) (ht : ∀ c ∈ t, c ≠ '\n' → p c)
    (hfront : ∀ c ∈ front, p c) : ∀ line ∈ lines.go t front, ∀ c ∈ line, p c := by
  induction t generalizing front with
  | nil =>
    rw [lines.go]
    split
    · simp
    · simpa using hfront
  | cons d t ih =>
    rw [List.forall_mem_cons] at ht
    rw [lines.go]
    split
    · refine List.forall_mem_cons.2 ⟨fun c hc => ?_, ih [] ht.2 (by simp)⟩
      exact hfront c (withoutReturn_subset front (List.mem_reverse.1 hc))
    · next hd => exact ih (d :: front) ht.2 (List.forall_mem_cons.2 ⟨ht.1 hd, hfront⟩)

theorem mem_of_mem_lines (hline : line ∈ lines t) {c : Char} (hc : c ∈ line) :
    c ∈ t ∧ c ≠ '\n' :=
  @forall_mem_go (fun c => c ∈ t ∧ c ≠ '\n') t [] (fun _ hmem hne => ⟨hmem, hne⟩) (by simp) line
    hline c hc

theorem mem_numberedLines {number : Nat} :
    (number, line) ∈ numberedLines t ↔ 1 ≤ number ∧ (lines t)[number - 1]? = some line := by
  unfold numberedLines
  rw [List.mem_map]
  constructor
  · rintro ⟨numbered, hmem, heq⟩
    obtain ⟨rfl, rfl⟩ := Prod.mk.inj heq
    exact List.mem_zipIdx_iff_le_and_getElem?_sub.1 hmem
  · intro h
    exact ⟨(line, number), List.mem_zipIdx_iff_le_and_getElem?_sub.2 h, rfl⟩

theorem pairwise_numberedLines (t : Text) : (numberedLines t).Pairwise (·.1 < ·.1) := by
  unfold numberedLines
  rw [List.pairwise_map, ← @List.pairwise_map _ _ Prod.snd (· < ·), List.zipIdx_map_snd]
  exact List.pairwise_lt_range' 1

theorem mem_visibleLines {number first last : Nat} :
    (number, line) ∈ visibleLines t first last ↔
      1 ≤ number ∧ first ≤ number ∧ number ≤ last ∧ (lines t)[number - 1]? = some line := by
  unfold visibleLines
  rw [List.mem_filter, mem_numberedLines, Bool.and_eq_true, decide_eq_true_eq, decide_eq_true_eq]
  tauto

theorem pairwise_visibleLines (t : Text) (first last : Nat) :
    (visibleLines t first last).Pairwise (·.1 < ·.1) :=
  (pairwise_numberedLines t).filter _

end numberedLines

end Text

end Preflight
