import Preflight.Proofs.Report.Drawn

/-!
This module contains what a colored report looks like: all lines are plain, except that in one of
them one stretch is set off. That is the stretch that the diagnostic is about, if this is counted
one character at a time.
-/

namespace Preflight

namespace Report

/--
In the report about a text nothing is set off but the `stretch` between `before` and `after`. There
is no escape sequence in it, so that it is clear where it ends.
-/
structure Highlights (theme : Theme) (diagnostic : Diagnostic) (file before stretch after : Text) :
    Prop where
  notMem : '\x1b' ∉ stretch
  exists_isColored : ∃ gutter width drawn right row,
    IsColored theme diagnostic (before ++ stretch ++ after) file gutter width drawn
      (Renderer.render ⟨theme, true⟩ diagnostic (before ++ stretch ++ after) file) ∧
    ⟨Text.lineBreaks before + 1, Text.lastLine before ++ stretch ++ right,
      theme.codeColor.ink ++ Text.lastLine before ++ Style.rendition [22, 24, 25, 27]
        ++ theme.errorCodeColor.ink ++ stretch ++ Style.rendition [22, 24, 25, 27]
        ++ theme.codeColor.ink ++ right, row⟩ ∈ drawn ∧
    ∀ line ∈ drawn, line.number ≠ Text.lineBreaks before + 1 →
      line.content = theme.codeColor.ink ++ line.line

theorem IsContent.eq_of_ne {theme : Theme} {diagnostic : Diagnostic} {number : Nat}
    {line content : Text} (h : IsContent theme diagnostic number line content)
    (hne : number ≠ diagnostic.source.line + 1) : content = theme.codeColor.ink ++ line := by
  cases h with
  | plain => rfl
  | broken => contradiction

section source

variable (theme : Theme) {diagnostic : Diagnostic} {before stretch : Text}
  (hsource : diagnostic.source = Location.start.after before)
include hsource

theorem displayLine_source : diagnostic.source.displayLine = Text.lineBreaks before + 1 := by
  rw [hsource, Location.start_after]
  rfl

theorem exists_mem_window (hne : stretch ≠ []) (hline : ∀ c ∈ stretch, c ≠ '\n' ∧ c ≠ '\r')
    (after : Text) :
    ∃ right, (Text.lineBreaks before + 1, Text.lastLine before ++ stretch ++ right) ∈
      window theme diagnostic (before ++ stretch ++ after) := by
  obtain ⟨ended, right, rest, hlength, hlines⟩ := Text.exists_lines_eq hne hline after
  refine ⟨right, mem_window.2 ⟨?_, ?_, ?_⟩⟩
  · rw [displayLine_source hsource]
    omega
  · rw [displayLine_source hsource]
    omega
  · rw [hlines, Nat.add_sub_cancel, ← hlength, List.getElem?_append_right (Nat.le_refl _),
      Nat.sub_self, List.getElem?_cons_zero]

theorem lineContent_source (hlength : diagnostic.length = stretch.length) (right : Text) :
    lineContent theme diagnostic (Text.lineBreaks before + 1)
        (Text.lastLine before ++ stretch ++ right) =
      theme.codeColor.ink ++ Text.lastLine before ++ Style.rendition [22, 24, 25, 27]
        ++ theme.errorCodeColor.ink ++ stretch ++ Style.rendition [22, 24, 25, 27]
        ++ theme.codeColor.ink ++ right := by
  have hcut : cut diagnostic (Text.lastLine before ++ stretch ++ right) =
      (Text.lastLine before, stretch, right) := by
    unfold cut
    rw [hsource, hlength, Location.start_after]
    simp
  unfold lineContent
  rw [if_pos (displayLine_source hsource).symm, hcut, Color.foreground_eq_ink,
    Color.foreground_eq_ink, Style.resetAttributes_eq]

theorem highlights_of_source_eq (file : Text) (hlength : diagnostic.length = stretch.length)
    (hne : stretch ≠ []) (hline : ∀ c ∈ stretch, c ≠ '\n' ∧ c ≠ '\r' ∧ c ≠ '\x1b')
    (after : Text) : Highlights theme diagnostic file before stretch after where
  notMem hmem := (hline _ hmem).2.2 rfl
  exists_isColored := by
    obtain ⟨right, hmem⟩ := exists_mem_window theme hsource hne
      (fun c hc => ⟨(hline c hc).1, (hline c hc).2.1⟩) after
    obtain ⟨row, hdrawn⟩ := exists_mem_drawnLines file hmem
    rw [lineContent_source theme hsource hlength] at hdrawn
    refine ⟨_, _, _, right, row, isColored_colored, hdrawn, ?_⟩
    intro line hmem hnumber
    rw [← displayLine_source hsource] at hnumber
    exact (isColored_colored.lines line hmem).content.eq_of_ne hnumber

end source

end Report

end Preflight
