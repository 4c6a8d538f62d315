import Preflight.Report.Theme
import Preflight.Text.Lines

/-!
This module contains the reports that are made of diagnostics.

A plain report is three lines long. A colored one starts with a header, then has a banner that tells
the location and the lines of the command line around it, all with a gutter on the left and a
background of the same width, and ends with a row of carets below the stretch in question and the
hint.
-/

namespace Preflight

structure Renderer where
  theme : Theme
  isColored : Bool
  deriving DecidableEq, Repr

namespace Report

def plain (diagnostic : Diagnostic) (file : Text) : Text :=
  diagnostic.severity.name.toList ++ " in ".toList ++ diagnostic.domain ++ " at ".toList
    ++ file ++ ':' :: diagnostic.source.display ++ "\n  ".toList ++ diagnostic.message
    ++ "\n  ".toList ++ diagnostic.hint ++ ['\n']

def window (theme : Theme) (diagnostic : Diagnostic) (raw : Text) : List (Nat × Text) :=
  let line := diagnostic.source.displayLine
  Text.visibleLines raw (max (line - theme.contextLines) 1) (line + theme.contextLines)

def banner (diagnostic : Diagnostic) (file : Text) : Text :=
  "/* at ".toList ++ file ++ ':' :: diagnostic.source.display ++ " */".toList

structure Layout where
  gutter : Nat
  width : Nat
  deriving DecidableEq, Repr

def Layout.of (theme : Theme) (diagnostic : Diagnostic) (file : Text)
    (lines : List (Nat × Text)) : Layout :=
  let line := diagnostic.source.displayLine
  let widest := max ((lines.getLast?.map (·.1)).getD line) line
  -- There is room for the greatest line number and a space.
  let gutter := (Text.decimal widest).length + 1
  let longest := (lines.map (·.2.length)).foldl max 0
  ⟨gutter, max longest (banner diagnostic file).length + theme.rightPadding + gutter⟩

def row (theme : Theme) (layout : Layout) (number : Option Nat) (content : Text) (visible : Nat) :
    Text :=
  -- The line that tells the location has no number.
  let background :=
    match number with
    | some n => if n % 2 = 1 then theme.lineColor else theme.altLineColor
    | none => theme.altLineColor
  let label :=
    match number with
    | some n => Text.padLeft ' ' layout.gutter (Text.decimal n)
    | none => List.replicate layout.gutter ' '
  background.background ++ theme.lineNumberColor.foreground ++ label ++ ' ' :: Style.resetAttributes
    ++ theme.separatorColor.foreground ++ ['|', ' '] ++ Style.resetAttributes ++ content
    ++ List.replicate (layout.width - visible) ' ' ++ Style.reset ++ ['\n']

def cut (diagnostic : Diagnostic) (line : Text) : Text × Text × Text :=
  let column := diagnostic.source.column
  let rest := line.drop column
  (line.take column, rest.take diagnostic.length, rest.drop diagnostic.length)

def lineContent (theme : Theme) (diagnostic : Diagnostic) (number : Nat) (line : Text) : Text :=
  let code := theme.codeColor.foreground
  if number = diagnostic.source.displayLine then
    let (left, stretch, tail) := cut diagnostic line
    code ++ left ++ Style.resetAttributes ++ theme.errorCodeColor.foreground ++ stretch
      ++ Style.resetAttributes ++ code ++ tail
  else
    code ++ line

def header (theme : Theme) (diagnostic : Diagnostic) : Text :=
  let severity :=
    (theme.severityColor diagnostic.severity).foreground ++ diagnostic.severity.name.toList
      ++ Style.reset
  let domain :=
    if diagnostic.domain.isEmpty then []
    else " at ".toList ++ theme.domainColor.foreground ++ diagnostic.domain ++ Style.reset
  severity ++ domain ++ ": ".toList ++ diagnostic.message ++ ['\n']

def footer (theme : Theme) (diagnostic : Diagnostic) (layout : Layout) : Text :=
  let indent := List.replicate (layout.gutter + 3 + diagnostic.source.column) ' '
  indent ++ theme.underlineColor.foreground ++ List.replicate diagnostic.length '^'
    ++ Style.reset ++ '\n' :: indent ++ diagnostic.hint ++ ['\n']

def colored (theme : Theme) (diagnostic : Diagnostic) (raw file : Text) : Text :=
  let lines := window theme diagnostic raw
  let layout := Layout.of theme diagnostic file lines
  let banner := banner diagnostic file
  header theme diagnostic
    ++ row theme layout none (theme.sourceColor.foreground ++ banner) banner.length
    ++ lines.flatMap (fun (number, line) =>
      row theme layout (some number) (lineContent theme diagnostic number line) line.length)
    ++ footer theme diagnostic layout

end Report

def Renderer.render (renderer : Renderer) (diagnostic : Diagnostic) (raw file : Text) : Text :=
  if renderer.isColored then Report.colored renderer.theme diagnostic raw file
  else Report.plain diagnostic file

end Preflight
