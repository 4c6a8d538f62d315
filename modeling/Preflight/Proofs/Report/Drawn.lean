import Mathlib.Data.List.Fold
import Mathlib.Data.List.MinMax
import Preflight.Proofs.Style.Rendition
import Preflight.Proofs.Text.Lines
import Preflight.Report.Render

/-!
This module contains how reports are written, down to the escape sequences between the characters.
-/

namespace Preflight

namespace Report

section window

variable {theme : Theme} {diagnostic : Diagnostic} {raw : Text}

theorem mem_window {number : Nat} {line : Text} :
    (number, line) ∈ window theme diagnostic raw ↔
      max 1 (diagnostic.source.displayLine - theme.contextLines) ≤ number ∧
      number ≤ diagnostic.source.displayLine + theme.contextLines ∧
      (Text.lines raw)[number - 1]? = some line := by
  unfold window
  rw [Text.mem_visibleLines, Nat.max_comm]
  constructor
  · exact fun h => h.2
  · exact fun h => ⟨Nat.le_trans (Nat.le_max_left _ _) h.1, h⟩

theorem pairwise_window : (window theme diagnostic raw).Pairwise (·.1 < ·.1) :=
  Text.pairwise_visibleLines _ _ _

end window

section Layout

theorem foldr_max_of_forall_le {numbers : List Nat} {m : Nat} (h : ∀ n ∈ numbers, n ≤ m) :
    numbers.foldr max m = m := by
  induction numbers with
  | nil => rfl
  | cons n numbers ih =>
    rw [List.forall_mem_cons] at h
    rw [List.foldr_cons, ih h.2, Nat.max_eq_right h.1]

theorem foldr_max_eq_max (numbers : List Nat) (m : Nat) :
    numbers.foldr max m = max (numbers.foldr max 0) m := by
  induction numbers with
  | nil => exact (Nat.zero_max m).symm
  | cons n numbers ih => rw [List.foldr_cons, List.foldr_cons, ih, Nat.max_assoc]

variable {theme : Theme} {diagnostic : Diagnostic} {file : Text} {lines : List (Nat × Text)}

theorem max_getLast?_eq_foldr_max (hlines : lines.Pairwise (·.1 < ·.1)) (m : Nat) :
    max ((lines.getLast?.map (·.1)).getD m) m = (lines.map (·.1)).foldr max m := by
  obtain rfl | ⟨front, last, rfl⟩ := List.eq_nil_or_concat lines
  · exact Nat.max_self _
  · rw [List.concat_eq_append] at hlines ⊢
    rw [List.map_append, List.foldr_append, List.map_singleton, List.foldr_cons, List.foldr_nil,
      List.getLast?_concat, foldr_max_of_forall_le]
    · rfl
    · rw [List.forall_mem_map]
      intro line hmem
      have hlt := (List.pairwise_append.1 hlines).2.2 line hmem last (List.mem_singleton_self last)
      omega

theorem Layout.gutter_of (hlines : lines.Pairwise (·.1 < ·.1)) :
    (Layout.of theme diagnostic file lines).gutter =
      (Nat.toDigits 10 ((lines.map (·.1)).foldr max (diagnostic.source.line + 1))).length + 1 := by
  dsimp only [Layout.of]
  rw [max_getLast?_eq_foldr_max hlines, Text.decimal_eq_toDigits]
  rfl

theorem Layout.width_of (lines : List (Nat × Text)) :
    (Layout.of theme diagnostic file lines).width =
      (lines.map (·.2.length)).foldr max (banner diagnostic file).length + theme.rightPadding
        + (Layout.of theme diagnostic file lines).gutter := by
  dsimp only [Layout.of]
  rw [foldr_max_eq_max, List.foldl_eq_foldr]

theorem Layout.length_decimal_le_gutter (hlines : lines.Pairwise (·.1 < ·.1)) {line : Nat × Text}
    (hmem : line ∈ lines) :
    (Text.decimal line.1).length ≤ (Layout.of theme diagnostic file lines).gutter := by
  rw [Layout.gutter_of hlines, ← Text.decimal_eq_toDigits]
  apply Nat.le_succ_of_le
  apply Text.length_numeral_le
  exact List.le_max_of_le' _ (List.mem_map_of_mem hmem) (Nat.le_refl _)

theorem Layout.length_le_width {line : Nat × Text} (hmem : line ∈ lines) :
    line.2.length ≤ (Layout.of theme diagnostic file lines).width := by
  have hmem : line.2.length ∈ lines.map (·.2.length) := List.mem_map_of_mem hmem
  have hle := List.le_max_of_le' (banner diagnostic file).length hmem (Nat.le_refl _)
  rw [Layout.width_of]
  omega

theorem Layout.length_banner_le :
    (banner diagnostic file).length ≤ (Layout.of theme diagnostic file lines).width := by
  simp only [Layout.of]
  omega

end Layout

/--
A row has a label at the right end of the gutter, a bar, and then a content of which `visible`
characters are seen. Spaces fill it up.
-/
inductive IsDrawnRow (theme : Theme) (gutter width : Nat) (behind : Color) (label content : Text)
    (visible : Nat) : Text → Prop where
  | intro {indent padding : Nat} (hindent : indent + label.length = gutter)
    (hpadding : visible + padding = width) :
    IsDrawnRow theme gutter width behind label content visible
      (behind.paper ++ theme.lineNumberColor.ink ++ List.replicate indent ' ' ++ label ++ [' ']
        ++ Style.rendition [22, 24, 25, 27] ++ theme.separatorColor.ink ++ ['|', ' ']
        ++ Style.rendition [22, 24, 25, 27] ++ content ++ List.replicate padding ' '
        ++ Style.rendition [0, 0, 0] ++ ['\n'])

/--
What is drawn of a line. In the line that a diagnostic is about, the stretch from its column on has
the color for errors, up to where the attributes are turned off.
-/
inductive IsContent (theme : Theme) (diagnostic : Diagnostic) : Nat → Text → Text → Prop where
  | plain {number : Nat} (hnumber : number ≠ diagnostic.source.line + 1) (line : Text) :
    IsContent theme diagnostic number line (theme.codeColor.ink ++ line)
  | broken {left stretch right : Text}
    (hleft : left.length = min diagnostic.source.column (left ++ stretch ++ right).length)
    (hstretch : stretch.length = min diagnostic.length (stretch ++ right).length) :
    IsContent theme diagnostic (diagnostic.source.line + 1) (left ++ stretch ++ right)
      (theme.codeColor.ink ++ left ++ Style.rendition [22, 24, 25, 27] ++ theme.errorCodeColor.ink
        ++ stretch ++ Style.rendition [22, 24, 25, 27] ++ theme.codeColor.ink ++ right)

structure DrawnLine where
  number : Nat
  line : Text
  content : Text
  row : Text

structure IsDrawnLine (theme : Theme) (diagnostic : Diagnostic) (gutter width : Nat)
    (drawn : DrawnLine) : Prop where
  content : IsContent theme diagnostic drawn.number drawn.line drawn.content
  row : IsDrawnRow theme gutter width
    (if drawn.number % 2 = 1 then theme.lineColor else theme.altLineColor)
    (Nat.toDigits 10 drawn.number) drawn.content drawn.line.length drawn.row

inductive IsHeader (theme : Theme) (diagnostic : Diagnostic) : Text → Prop where
  | intro {place : Text} (hplace : diagnostic.domain = [] ∧ place = [] ∨
      diagnostic.domain ≠ [] ∧ place = " at ".toList ++ theme.domainColor.ink
        ++ diagnostic.domain ++ Style.rendition [0, 0, 0]) :
    IsHeader theme diagnostic
      ((theme.severityColor diagnostic.severity).ink ++ diagnostic.severity.name.toList
        ++ Style.rendition [0, 0, 0] ++ place ++ ": ".toList ++ diagnostic.message ++ ['\n'])

def place (diagnostic : Diagnostic) (file : Text) : Text :=
  file ++ ':' :: Nat.toDigits 10 (diagnostic.source.line + 1)
    ++ ':' :: Nat.toDigits 10 (diagnostic.source.column + 1)

def caption (diagnostic : Diagnostic) (file : Text) : Text :=
  "/* at ".toList ++ place diagnostic file ++ " */".toList

structure IsColored (theme : Theme) (diagnostic : Diagnostic) (raw file : Text)
    (gutter width : Nat) (drawn : List DrawnLine) (report : Text) : Prop where
  mem_iff : ∀ number line, (∃ content row, ⟨number, line, content, row⟩ ∈ drawn) ↔
    1 ≤ number ∧ diagnostic.source.line + 1 ≤ number + theme.contextLines ∧
    number ≤ diagnostic.source.line + 1 + theme.contextLines ∧
    (Text.lines raw)[number - 1]? = some line
  pairwise : drawn.Pairwise (·.number < ·.number)
  gutter_eq : gutter =
    (Nat.toDigits 10 ((drawn.map (·.number)).foldr max (diagnostic.source.line + 1))).length + 1
  width_eq : width =
    (drawn.map (·.line.length)).foldr max (caption diagnostic file).length + theme.rightPadding
      + gutter
  lines : ∀ line ∈ drawn, IsDrawnLine theme diagnostic gutter width line
  exists_eq : ∃ header banner, IsHeader theme diagnostic header ∧
    IsDrawnRow theme gutter width theme.altLineColor []
      (theme.sourceColor.ink ++ caption diagnostic file) (caption diagnostic file).length banner ∧
    report = header ++ banner ++ drawn.flatMap (·.row)
      ++ (List.replicate (gutter + 3 + diagnostic.source.column) ' ' ++ theme.underlineColor.ink
        ++ List.replicate diagnostic.length '^' ++ Style.rendition [0, 0, 0] ++ ['\n'])
      ++ (List.replicate (gutter + 3 + diagnostic.source.column) ' ' ++ diagnostic.hint ++ ['\n'])

inductive IsReport (diagnostic : Diagnostic) (raw file : Text) : Renderer → Text → Prop where
  | plain (theme : Theme) : IsReport diagnostic raw file ⟨theme, false⟩
    (diagnostic.severity.name.toList ++ " in ".toList ++ diagnostic.domain ++ " at ".toList
      ++ place diagnostic file ++ "\n  ".toList ++ diagnostic.message ++ "\n  ".toList
      ++ diagnostic.hint ++ ['\n'])
  | colored {theme : Theme} {gutter width : Nat} {drawn : List DrawnLine} {report : Text}
    (h : IsColored theme diagnostic raw file gutter width drawn report) :
    IsReport diagnostic raw file ⟨theme, true⟩ report

section render

variable {theme : Theme} {diagnostic : Diagnostic} {raw file : Text}

theorem place_eq (diagnostic : Diagnostic) (file : Text) :
    place diagnostic file = file ++ ':' :: diagnostic.source.display := by
  unfold place Location.display
  rw [Text.decimal_eq_toDigits, Text.decimal_eq_toDigits]
  simp [Location.displayLine, Location.displayColumn]

theorem banner_eq_caption (diagnostic : Diagnostic) (file : Text) :
    banner diagnostic file = caption diagnostic file := by
  unfold banner caption
  rw [place_eq]
  simp

theorem isDrawnRow_row {layout : Layout} {number : Option Nat} {content : Text} {visible : Nat}
    (hlabel : ((number.map (Nat.toDigits 10)).getD []).length ≤ layout.gutter)
    (hvisible : visible ≤ layout.width) :
    IsDrawnRow theme layout.gutter layout.width
      (if number.any (· % 2 = 1) then theme.lineColor else theme.altLineColor)
      ((number.map (Nat.toDigits 10)).getD []) content visible
      (row theme layout number content visible) := by
  have h := @IsDrawnRow.intro theme _ _
    (if number.any (· % 2 = 1) then theme.lineColor else theme.altLineColor) _ content _ _ _
    (Nat.sub_add_cancel hlabel) (Nat.add_sub_cancel' hvisible)
  unfold row
  cases number with
  | none => simpa [Color.foreground_eq_ink, Color.background_eq_paper, Style.reset_eq,
      Style.resetAttributes_eq] using h
  | some n => simpa [Color.foreground_eq_ink, Color.background_eq_paper, Style.reset_eq,
      Style.resetAttributes_eq, Text.padLeft, Text.decimal_eq_toDigits] using h

theorem isContent_lineContent (number : Nat) (line : Text) :
    IsContent theme diagnostic number line (lineContent theme diagnostic number line) := by
  unfold lineContent
  rw [Color.foreground_eq_ink, Color.foreground_eq_ink, Style.resetAttributes_eq]
  split
  · next hnumber =>
    rw [hnumber]
    have h := @IsContent.broken theme diagnostic (line.take diagnostic.source.column)
      ((line.drop diagnostic.source.column).take diagnostic.length)
      ((line.drop diagnostic.source.column).drop diagnostic.length)
    rw [List.append_assoc, List.take_append_drop, List.take_append_drop] at h
    exact h (List.length_take ..) (List.length_take ..)
  · next hnumber => exact .plain hnumber line

theorem isHeader_header : IsHeader theme diagnostic (header theme diagnostic) := by
  unfold header
  dsimp only
  rw [Color.foreground_eq_ink, Color.foreground_eq_ink, Style.reset_eq]
  refine .intro ?_
  by_cases hdomain : diagnostic.domain = []
  · exact .inl ⟨hdomain, by simp [hdomain]⟩
  · exact .inr ⟨hdomain, by simp [hdomain]⟩

def drawnLines (theme : Theme) (diagnostic : Diagnostic) (raw file : Text) : List DrawnLine :=
  let lines := window theme diagnostic raw
  lines.map fun (number, line) =>
    let content := lineContent theme diagnostic number line
    ⟨number, line, content,
      row theme (Layout.of theme diagnostic file lines) (some number) content line.length⟩

theorem exists_mem_drawnLines (file : Text) {number : Nat} {line : Text}
    (h : (number, line) ∈ window theme diagnostic raw) :
    ∃ row, ⟨number, line, lineContent theme diagnostic number line, row⟩ ∈
      drawnLines theme diagnostic raw file :=
  ⟨_, List.mem_map_of_mem h⟩

theorem isColored_colored :
    let layout := Layout.of theme diagnostic file (window theme diagnostic raw)
    IsColored theme diagnostic raw file layout.gutter layout.width
      (drawnLines theme diagnostic raw file) (colored theme diagnostic raw file) where
  mem_iff number line := by
    rw [← Nat.sub_le_iff_le_add, ← and_assoc, ← Nat.max_le]
    exact Iff.trans (by simp [drawnLines]) mem_window
  pairwise := List.pairwise_map.2 pairwise_window
  gutter_eq := by
    rw [Layout.gutter_of pairwise_window]
    simp [drawnLines, Function.comp_def]
  width_eq := by
    rw [Layout.width_of, banner_eq_caption]
    simp [drawnLines, Function.comp_def]
  lines := by
    unfold drawnLines
    dsimp only
    rw [List.forall_mem_map]
    rintro ⟨number, line⟩ hmem
    refine ⟨isContent_lineContent number line, ?_⟩
    have hlabel := @Layout.length_decimal_le_gutter theme diagnostic file _ pairwise_window _ hmem
    rw [Text.decimal_eq_toDigits] at hlabel
    simpa using @isDrawnRow_row theme _ (some number) (lineContent theme diagnostic number line) _
      hlabel (Layout.length_le_width hmem)
  exists_eq := by
    rw [← banner_eq_caption]
    have hbanner : IsDrawnRow theme _ _ theme.altLineColor [] _ _ _ :=
      @isDrawnRow_row theme (Layout.of theme diagnostic file (window theme diagnostic raw)) none
        (theme.sourceColor.ink ++ banner diagnostic file) _ (Nat.zero_le _) Layout.length_banner_le
    refine ⟨_, _, isHeader_header, hbanner, ?_⟩
    unfold colored footer drawnLines
    dsimp only
    rw [List.flatMap_map, Color.foreground_eq_ink, Color.foreground_eq_ink, Style.reset_eq]
    simp only [List.append_assoc, List.cons_append, List.nil_append]

theorem isReport_render (renderer : Renderer) :
    IsReport diagnostic raw file renderer (renderer.render diagnostic raw file) := by
  obtain ⟨theme, isColored⟩ := renderer
  cases isColored with
  | true => exact .colored isColored_colored
  | false =>
    have h := @IsReport.plain diagnostic raw file theme
    rw [place_eq] at h
    unfold Renderer.render plain
    simpa using h

end render

end Report

end Preflight
