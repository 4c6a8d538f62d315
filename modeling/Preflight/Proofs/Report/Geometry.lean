import Preflight.Proofs.Report.Drawn
import Preflight.Proofs.Style.Strip

/-!
This module contains what is seen of a colored report when the escape sequences are taken out of it:
its rows stand below each other in such a way that the carets point at the stretch in question.
-/

namespace Preflight

namespace Report

structure ShownLine where
  number : Nat
  content : Text
  row : Text
  deriving DecidableEq, Repr

structure Picture where
  header : Text
  banner : Text
  lines : List ShownLine
  carets : Text
  hint : Text
  deriving DecidableEq, Repr

namespace Picture

def rows (picture : Picture) : List Text :=
  picture.header :: picture.banner :: picture.lines.map (·.row) ++ [picture.carets, picture.hint]

def text (picture : Picture) : Text := picture.rows.flatMap (· ++ ['\n'])

theorem text_eq (picture : Picture) :
    picture.text = picture.header ++ ['\n'] ++ (picture.banner ++ ['\n'])
      ++ picture.lines.flatMap (fun line => line.row ++ ['\n'])
      ++ (picture.carets ++ '\n' :: picture.hint ++ ['\n']) := by
  unfold text rows
  simp [List.flatMap_map]

end Picture

structure IsRow (gutter margin : Nat) (label content row : Text) : Prop where
  exists_eq : ∃ indent padding, indent + label.length = gutter ∧
    row = List.replicate indent ' ' ++ label ++ " | ".toList ++ content
      ++ List.replicate padding ' '
  length_eq : row.length = margin
  getElem?_row : ∀ i c, content[i]? = some c → row[gutter + 3 + i]? = some c

def heading (diagnostic : Diagnostic) : Text :=
  diagnostic.severity.name.toList
    ++ (if diagnostic.domain.isEmpty then [] else " at ".toList ++ diagnostic.domain)
    ++ ": ".toList ++ diagnostic.message

/--
A picture shows the command line `raw` around the stretch that a diagnostic is about. The first
caret has as many places before it as the character in the column of the diagnostic has on the row
of its line.
-/
structure IsPicture (theme : Theme) (diagnostic : Diagnostic) (raw file : Text)
    (gutter margin : Nat) (picture : Picture) : Prop where
  header_eq : picture.header = heading diagnostic
  banner : IsRow gutter margin [] (banner diagnostic file) picture.banner
  mem_lines_iff : ∀ number content, (∃ row, ⟨number, content, row⟩ ∈ picture.lines) ↔
    max 1 (diagnostic.source.displayLine - theme.contextLines) ≤ number ∧
    number ≤ diagnostic.source.displayLine + theme.contextLines ∧
    (Text.lines raw)[number - 1]? = some content
  pairwise_lines : picture.lines.Pairwise (·.number < ·.number)
  lines : ∀ line ∈ picture.lines,
    IsRow gutter margin (Text.decimal line.number) line.content line.row
  carets_eq : picture.carets =
    List.replicate (gutter + 3 + diagnostic.source.column) ' '
      ++ List.replicate diagnostic.length '^'
  hint_eq : picture.hint =
    List.replicate (gutter + 3 + diagnostic.source.column) ' ' ++ diagnostic.hint
  notMem_rows : ∀ row ∈ picture.rows, '\n' ∉ row

def bareRow (layout : Layout) (label content : Text) : Text :=
  Text.padLeft ' ' layout.gutter label ++ " | ".toList ++ content
    ++ List.replicate (layout.width - content.length) ' '

def picture (theme : Theme) (diagnostic : Diagnostic) (raw file : Text) : Picture :=
  let lines := window theme diagnostic raw
  let layout := Layout.of theme diagnostic file lines
  let indent := List.replicate (layout.gutter + 3 + diagnostic.source.column) ' '
  { header := heading diagnostic
    banner := bareRow layout [] (banner diagnostic file)
    lines := lines.map fun (number, line) =>
      ⟨number, line, bareRow layout (Text.decimal number) line⟩
    carets := indent ++ List.replicate diagnostic.length '^'
    hint := indent ++ diagnostic.hint }

theorem isRow_bareRow {layout : Layout} {label content : Text}
    (hlabel : label.length ≤ layout.gutter) (hcontent : content.length ≤ layout.width) :
    IsRow layout.gutter (layout.gutter + 3 + layout.width) label content
      (bareRow layout label content) where
  exists_eq := ⟨layout.gutter - label.length, layout.width - content.length, by omega, rfl⟩
  length_eq := by
    unfold bareRow
    simp only [List.length_append, List.length_replicate, Text.length_padLeft]
    rw [Nat.max_eq_left hlabel, show " | ".toList.length = 3 from rfl]
    omega
  getElem?_row := by
    intro i c hc
    have hlength : (Text.padLeft ' ' layout.gutter label ++ " | ".toList).length =
        layout.gutter + 3 := by
      rw [List.length_append, Text.length_padLeft, Nat.max_eq_left hlabel]
      rfl
    unfold bareRow
    rw [List.append_assoc, List.getElem?_append_right (by omega), hlength, Nat.add_sub_cancel_left,
      List.getElem?_append_left (List.getElem?_eq_some_iff.1 hc).1, hc]

theorem cut_append (diagnostic : Diagnostic) (line : Text) :
    (cut diagnostic line).1 ++ ((cut diagnostic line).2.1 ++ (cut diagnostic line).2.2) = line := by
  unfold cut
  rw [List.take_append_drop, List.take_append_drop]

section Shows

open Style

variable (theme : Theme) (diagnostic : Diagnostic) (layout : Layout)

theorem isInline_spaces (n : Nat) : IsInline (List.replicate n ' ') :=
  isInline_replicate (by decide) n

theorem isInline_bareRow {label content : Text} (hlabel : IsInline label)
    (hcontent : IsInline content) : IsInline (bareRow layout label content) := by
  unfold bareRow Text.padLeft
  simp only [isInline_append]
  exact ⟨⟨⟨⟨isInline_spaces _, hlabel⟩, by decide⟩, hcontent⟩, isInline_spaces _⟩

theorem isInline_banner {file : Text} (hfile : IsInline file) :
    IsInline (banner diagnostic file) := by
  unfold banner Location.display
  simp only [isInline_append, isInline_cons]
  exact ⟨⟨⟨by decide, hfile⟩, by decide, isInline_decimal _, by decide, isInline_decimal _⟩,
    by decide⟩

theorem isInline_name (severity : Severity) : IsInline severity.name.toList := by
  cases severity <;> decide

theorem isInline_heading (hdomain : IsInline diagnostic.domain)
    (hmessage : IsInline diagnostic.message) : IsInline (heading diagnostic) := by
  unfold heading
  simp only [isInline_append]
  refine ⟨⟨⟨isInline_name _, ?_⟩, by decide⟩, hmessage⟩
  split
  · decide
  · exact isInline_append.2 ⟨by decide, hdomain⟩

theorem shows_row (number : Option Nat) {content shown : Text} (h : Shows content shown) :
    Shows (row theme layout number content shown.length)
      (bareRow layout ((number.map Text.decimal).getD []) shown ++ ['\n']) := by
  unfold row bareRow
  -- The attributes are reset between the blank behind the label and the bar.
  rw [show " | ".toList = [' ', '|', ' '] from rfl]
  simp only [List.append_assoc, List.cons_append, List.nil_append]
  apply (shows_sequence _ _).hide_append
  apply (shows_sequence _ _).hide_append
  refine Shows.append ?label (Shows.cons (by decide) ?_)
  case label =>
    cases number with
    | none =>
      rw [Option.map_none, Option.getD_none, Text.padLeft, List.append_nil]
      exact (isInline_spaces _).shows
    | some n => exact (isInline_spaces _).shows.append (isInline_decimal n).shows
  apply shows_resetAttributes.hide_append
  apply (shows_sequence _ _).hide_append
  apply Shows.cons (by decide)
  apply Shows.cons (by decide)
  apply shows_resetAttributes.hide_append
  apply h.append
  apply (isInline_spaces _).shows.append
  exact shows_reset.hide_append shows_newline

theorem shows_lineContent (number : Nat) {line : Text} (h : IsInline line) :
    Shows (lineContent theme diagnostic number line) line := by
  have hcut := cut_append diagnostic line
  unfold lineContent
  split
  -- The line in question is written in three parts, which together are the line.
  · generalize cut diagnostic line = parts at hcut
    obtain ⟨left, stretch, tail⟩ := parts
    subst hcut
    simp only [isInline_append] at h
    simp only [List.append_assoc]
    apply (shows_sequence _ _).hide_append
    apply h.1.shows.append
    apply shows_resetAttributes.hide_append
    apply (shows_sequence _ _).hide_append
    apply h.2.1.shows.append
    apply shows_resetAttributes.hide_append
    exact (shows_sequence _ _).hide_append h.2.2.shows
  · exact (shows_sequence _ _).hide_append h.shows

theorem shows_header (hdomain : IsInline diagnostic.domain)
    (hmessage : IsInline diagnostic.message) :
    Shows (header theme diagnostic) (heading diagnostic ++ ['\n']) := by
  have hplace : Shows
      (if diagnostic.domain.isEmpty then []
        else " at ".toList ++ (theme.domainColor.foreground ++ (diagnostic.domain ++ reset)))
      (if diagnostic.domain.isEmpty then [] else " at ".toList ++ diagnostic.domain) := by
    split
    · exact fun _ => rfl
    · apply Shows.append (IsInline.shows (by decide))
      exact (shows_sequence _ _).hide_append (hdomain.shows.append_hide shows_reset)
  unfold header heading
  simp only [List.append_assoc]
  apply (shows_sequence _ _).hide_append
  apply (isInline_name _).shows.append
  apply shows_reset.hide_append
  apply hplace.append
  apply Shows.append (IsInline.shows (by decide))
  exact hmessage.shows.append shows_newline

theorem shows_footer (hhint : IsInline diagnostic.hint) :
    let indent := List.replicate (layout.gutter + 3 + diagnostic.source.column) ' '
    Shows (footer theme diagnostic layout)
      (indent ++ List.replicate diagnostic.length '^' ++ '\n' :: (indent ++ diagnostic.hint)
        ++ ['\n']) := by
  unfold footer
  simp only [List.append_assoc, List.cons_append]
  apply (isInline_spaces _).shows.append
  apply (shows_sequence _ _).hide_append
  apply (isInline_replicate (by decide) _).shows.append
  apply shows_reset.hide_append
  apply Shows.cons (by decide)
  apply (isInline_spaces _).shows.append
  exact hhint.shows.append shows_newline

end Shows

section picture

open Style

variable {theme : Theme} {diagnostic : Diagnostic} {raw file : Text}

variable (hraw : '\x1b' ∉ raw) (hfile : IsInline file) (hdomain : IsInline diagnostic.domain)
  (hmessage : IsInline diagnostic.message) (hhint : IsInline diagnostic.hint)

include hraw in
theorem isInline_of_mem_window {line : Nat × Text} (hmem : line ∈ window theme diagnostic raw) :
    IsInline line.2 := by
  intro c hc
  have hline := List.mem_of_getElem? (mem_window.1 hmem).2.2
  obtain ⟨hmem, hne⟩ := Text.mem_of_mem_lines hline hc
  exact ⟨fun h => hraw (h ▸ hmem), hne⟩

include hraw hfile hdomain hmessage hhint

theorem strip_colored : strip (colored theme diagnostic raw file) =
    (picture theme diagnostic raw file).text := by
  apply Shows.strip_eq
  rw [Picture.text_eq]
  unfold colored picture
  dsimp only
  rw [List.flatMap_map]
  apply Shows.append
  · apply Shows.append
    · apply (shows_header theme diagnostic hdomain hmessage).append
      apply shows_row
      exact (shows_sequence _ _).hide_append (isInline_banner diagnostic hfile).shows
    · apply Shows.flatMap
      rintro ⟨number, line⟩ hmem
      apply shows_row theme _ (some number)
      exact shows_lineContent theme diagnostic number (isInline_of_mem_window hraw hmem)
  · exact shows_footer theme diagnostic _ hhint

theorem isInline_of_mem_rows : ∀ row ∈ (picture theme diagnostic raw file).rows, IsInline row := by
  unfold Picture.rows picture
  dsimp only
  simp only [List.forall_mem_append, List.forall_mem_cons, List.forall_mem_map]
  refine ⟨⟨isInline_heading _ hdomain hmessage, ?_, ?_⟩, ?_, ?_, by simp⟩
  · exact isInline_bareRow _ (by decide) (isInline_banner _ hfile)
  · intro line hmem
    exact isInline_bareRow _ (isInline_decimal _) (isInline_of_mem_window hraw hmem)
  · exact isInline_append.2 ⟨isInline_spaces _, isInline_replicate (by decide) _⟩
  · exact isInline_append.2 ⟨isInline_spaces _, hhint⟩

theorem isPicture_picture :
    let layout := Layout.of theme diagnostic file (window theme diagnostic raw)
    IsPicture theme diagnostic raw file layout.gutter (layout.gutter + 3 + layout.width)
      (picture theme diagnostic raw file) where
  header_eq := rfl
  banner := isRow_bareRow (Nat.zero_le _) Layout.length_banner_le
  mem_lines_iff := by
    intro number content
    rw [← mem_window]
    unfold picture
    simp
  pairwise_lines := List.pairwise_map.2 pairwise_window
  lines := by
    unfold picture
    dsimp only
    rw [List.forall_mem_map]
    rintro ⟨number, line⟩ hmem
    exact isRow_bareRow (Layout.length_decimal_le_gutter pairwise_window hmem)
      (Layout.length_le_width hmem)
  carets_eq := rfl
  hint_eq := rfl
  notMem_rows := by
    intro row hmem hnewline
    exact (isInline_of_mem_rows hraw hfile hdomain hmessage hhint row hmem _ hnewline).2 rfl

theorem exists_isPicture : ∃ gutter margin picture,
    IsPicture theme diagnostic raw file gutter margin picture ∧
      strip (Renderer.render ⟨theme, true⟩ diagnostic raw file) = picture.text := by
  refine ⟨_, _, _, isPicture_picture hraw hfile hdomain hmessage hhint, ?_⟩
  unfold Renderer.render
  rw [if_pos rfl]
  exact strip_colored hraw hfile hdomain hmessage hhint

end picture

theorem exists_isPicture_behind_line :
    let diagnostic : Diagnostic :=
      ⟨.warning, "parser".toList, "if without end".toList, "add end".toList, ⟨1, 4⟩, 2, by decide⟩
    let raw := "if true\n\t‹ü\n".toList
    '\x1b' ∉ raw ∧ Style.IsInline "argv".toList ∧ Style.IsInline diagnostic.domain ∧
      Style.IsInline diagnostic.message ∧ Style.IsInline diagnostic.hint ∧
      ∃ gutter margin picture,
        IsPicture .default diagnostic raw "argv".toList gutter margin picture ∧
          Style.strip (Renderer.render ⟨.default, true⟩ diagnostic raw "argv".toList) =
            picture.text :=
  ⟨by decide, by decide, by decide, by decide, by decide,
    exists_isPicture (by decide) (by decide) (by decide) (by decide) (by decide)⟩

end Report

end Preflight
