import Preflight.Diagnostic
import Preflight.Style.Color

/-!
This module contains the colors and measures of colored reports.
-/

namespace Preflight

/--
Everything that decides how a colored report looks.

Lines with an odd number have `lineColor` as background, lines with an even number and the line that
tells the location have `altLineColor`. `contextLines` is how many lines are shown above and below
the one in question, `rightPadding` how far the background goes on after the longest line.
-/
structure Theme where
  errorColor : Color
  warningColor : Color
  noteColor : Color
  lineColor : Color
  altLineColor : Color
  lineNumberColor : Color
  separatorColor : Color
  underlineColor : Color
  errorCodeColor : Color
  codeColor : Color
  domainColor : Color
  sourceColor : Color
  contextLines : Nat
  rightPadding : Nat
  deriving DecidableEq, Repr

namespace Theme

def severityColor (theme : Theme) : Severity → Color
  | .error => theme.errorColor
  | .warning => theme.warningColor
  | .note => theme.noteColor

def default : Theme where
  errorColor := (Color.rgb 220 50 47).withAttribute .bold
  warningColor := (Color.rgb 181 137 0).withAttribute .bold
  noteColor := (Color.rgb 38 139 210).withAttribute .bold
  lineColor := Color.rgb 30 31 44
  altLineColor := (Color.rgb 21 22 30).withAttribute .dim
  lineNumberColor := (Color.rgb 193 195 211).withAttribute .dim
  separatorColor := Color.rgb 100 105 140
  underlineColor := (Color.rgb 220 50 47).withAttribute .bold
  errorCodeColor := (Color.rgb 220 50 47).withAttribute .bold
  codeColor := Color.rgb 255 255 255
  domainColor := (Color.rgb 116 107 215).withAttribute .bold
  sourceColor := (Color.rgb 150 150 150).withAttribute .dim
  contextLines := 2
  rightPadding := 5

end Theme

end Preflight
