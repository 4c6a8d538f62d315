import Preflight.Balance
import Preflight.Diagnostic
import Preflight.Dump
import Preflight.Files.FileSystem
import Preflight.Files.OsError
import Preflight.Files.Path
import Preflight.Launch
import Preflight.Location
import Preflight.Log
import Preflight.Log.Event
import Preflight.Log.Filter
import Preflight.Main
import Preflight.Options
import Preflight.PathCorrection
import Preflight.Plan
import Preflight.Problem
import Preflight.Process
import Preflight.ProgramIndex
import Preflight.Proofs.Balance
import Preflight.Proofs.Balance.Agreement
import Preflight.Proofs.Balance.Cut
import Preflight.Proofs.Balance.Repair
import Preflight.Proofs.Balance.Verdict
import Preflight.Proofs.CommandLine
import Preflight.Proofs.Dump
import Preflight.Proofs.Dump.Written
import Preflight.Proofs.Files.FileSystem
import Preflight.Proofs.Files.Follow
import Preflight.Proofs.Files.Path
import Preflight.Proofs.Files.Reordered
import Preflight.Proofs.Location
import Preflight.Proofs.PathCorrection
import Preflight.Proofs.PathCorrection.Existence
import Preflight.Proofs.PathCorrection.Walk
import Preflight.Proofs.Plan
import Preflight.Proofs.Plan.Collection
import Preflight.Proofs.ProgramIndex
import Preflight.Proofs.ProgramIndex.Nearest
import Preflight.Proofs.ProgramIndex.SearchPath
import Preflight.Proofs.Report.Culprit
import Preflight.Proofs.Report.Drawn
import Preflight.Proofs.Report.Geometry
import Preflight.Proofs.Report.Highlight
import Preflight.Proofs.Resolution
import Preflight.Proofs.Resolution.ByName
import Preflight.Proofs.Resolution.ByPath
import Preflight.Proofs.Resolution.Consent
import Preflight.Proofs.Session
import Preflight.Proofs.Session.Check
import Preflight.Proofs.Session.Talk
import Preflight.Proofs.Spelling
import Preflight.Proofs.Spelling.Laws
import Preflight.Proofs.Style.Color
import Preflight.Proofs.Style.Rendition
import Preflight.Proofs.Syntax.Arena
import Preflight.Proofs.Syntax.Grammar
import Preflight.Proofs.Syntax.Outline
import Preflight.Proofs.Syntax.Parser
import Preflight.Proofs.Syntax.Preorder
import Preflight.Proofs.Syntax.Shape
import Preflight.Proofs.Syntax.Source
import Preflight.Proofs.Syntax.Statement
import Preflight.Proofs.Syntax.Traversal
import Preflight.Proofs.Syntax.Tree
import Preflight.Proofs.Terminal.Key
import Preflight.Proofs.Terminal.KeyCode
import Preflight.Proofs.Terminal.Keyboard
import Preflight.Proofs.Terminal.LineEditor
import Preflight.Proofs.Terminal.LineEditor.Course
import Preflight.Proofs.Terminal.LineEditor.Draft
import Preflight.Proofs.Terminal.LineEditor.IllFormed
import Preflight.Proofs.Terminal.LineEditor.Range
import Preflight.Proofs.Terminal.LineEditor.Screen
import Preflight.Proofs.Terminal.LineEditor.Sequence
import Preflight.Proofs.Terminal.LineEditor.Typed
import Preflight.Proofs.Terminal.Prompt
import Preflight.Proofs.Terminal.Prompt.Answer
import Preflight.Proofs.Terminal.Reader.Account
import Preflight.Proofs.Text.Json
import Preflight.Proofs.Text.Lines
import Preflight.Proofs.Text.Position
import Preflight.Proofs.Text.Quoted
import Preflight.Proofs.Text.Utf8
import Preflight.Proofs.Text.Utf8.Decode
import Preflight.Proofs.Text.Words
import Preflight.Proofs.Token.Append
import Preflight.Proofs.Token.Cut
import Preflight.Proofs.Token.Lexer
import Preflight.Proofs.Token.Slice
import Preflight.Proofs.Word
import Preflight.Proofs.Word.Escaped
import Preflight.Proofs.Word.Written
import Preflight.Report.Render
import Preflight.Report.Theme
import Preflight.Resolution
import Preflight.Session
import Preflight.Session.Events
import Preflight.Session.Setup
import Preflight.Session.World
import Preflight.Settings.Config
import Preflight.Settings.Toml
import Preflight.Settings.Value
import Preflight.Spelling
import Preflight.Style.Color
import Preflight.Style.Cursor
import Preflight.Syntax.Outline
import Preflight.Syntax.Parser
import Preflight.Syntax.Rose
import Preflight.Syntax.Tree
import Preflight.Terminal.Key
import Preflight.Terminal.LineEditor
import Preflight.Terminal.Output
import Preflight.Terminal.Prompt
import Preflight.Terminal.Reader
import Preflight.Text.Alphanumeric
import Preflight.Text.Blank
import Preflight.Text.Json
import Preflight.Text.Lines
import Preflight.Text.Numeral
import Preflight.Text.Printed
import Preflight.Text.Quoted
import Preflight.Text.Ranges
import Preflight.Text.Regex
import Preflight.Text.Utf8
import Preflight.Token
import Preflight.Token.Lexer
import Preflight.Word
