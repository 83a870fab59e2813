import Typeset.CSource.Basic
import Typeset.CSource.Layout
import Typeset.CSource.Sample
import Typeset.CSource.Schema
import Typeset.CommandLine.Command
import Typeset.CommandLine.Grammar
import Typeset.CommandLine.Host
import Typeset.CommandLine.Misuse
import Typeset.CommandLine.Request
import Typeset.Document
import Typeset.Files
import Typeset.Formatter
import Typeset.Json.Alike
import Typeset.Json.Basic
import Typeset.Json.Display
import Typeset.Json.Printer
import Typeset.Json.Reader
import Typeset.Layout.Alike
import Typeset.Layout.Basic
import Typeset.Layout.Build
import Typeset.Layout.Combinators
import Typeset.Layout.Fault
import Typeset.Layout.FlatForm
import Typeset.Layout.FlatText
import Typeset.Layout.Flatten
import Typeset.Layout.Stray
import Typeset.Log
import Typeset.Main
import Typeset.Number.Binary64
import Typeset.Registry
import Typeset.Rendering
import Typeset.Resolution.Line
import Typeset.Resolution.Stream
import Typeset.SExpr.Basic
import Typeset.SExpr.Layout
import Typeset.SExpr.Schema
import Typeset.Schema.Check
import Typeset.Schema.Issue
import Typeset.Schema.Name
import Typeset.Session
import Typeset.Settings
import Typeset.Text.Blank
import Typeset.Text.Digit
import Typeset.Text.Integer
import Typeset.Text.PaddedInteger
import Typeset.Text.Pieces
import Typeset.Text.Printable
import Typeset.Text.Quoted
import Typeset.Token.Basic
import Typeset.Token.Feed
import Typeset.Tree.Basic
import Typeset.Tree.Layout
import Typeset.Tree.Schema
import Typeset.Words
import Typeset.Proofs.Resolution.Candidate
import Typeset.Proofs.Resolution.ForkStack
import Typeset.Proofs.Resolution.Lines
import Typeset.Proofs.Resolution.Greedy
import Typeset.Proofs.Layout.Choices
import Typeset.Proofs.Token.Written
import Typeset.Proofs.Resolution.Content
import Typeset.Proofs.Layout.Construction
import Typeset.Proofs.Layout.Steady
import Typeset.Proofs.Session.Outcome
import Typeset.Proofs.Document.Steady
import Typeset.Proofs.Document.Formatted
import Typeset.Proofs.Resolution.Filled
import Typeset.Proofs.Resolution.Termination
import Typeset.Proofs.Resolution.Delivery
import Typeset.Proofs.Resolution.Writing
import Typeset.Proofs.Resolution.Atomic
import Typeset.Proofs.Resolution.Breaks
import Typeset.Proofs.Document.Stacked
import Typeset.Proofs.Resolution.Squeezed
import Typeset.Proofs.Resolution.Shifted
import Typeset.Proofs.Resolution.Trace
import Typeset.Proofs.Resolution.Interchange
import Typeset.Proofs.Layout.ChoiceLaws
import Typeset.Proofs.Layout.Nesting
import Typeset.Proofs.Resolution.LineEnd
import Typeset.Proofs.SExpr.Printed
import Typeset.Proofs.Text.Reading
import Typeset.Proofs.Layout.Spelling
import Typeset.Proofs.Layout.Reading
import Typeset.Proofs.Text.Code
import Typeset.Proofs.Text.Words
import Typeset.Proofs.Tree.Words
import Typeset.Proofs.SExpr.Words
import Typeset.Proofs.CSource.Lexemes
import Typeset.Proofs.CSource.Carried
import Typeset.Proofs.CSource.Parts
import Typeset.Proofs.CSource.Unambiguous
import Typeset.Proofs.Resolution.Renderings
import Typeset.Proofs.Json.Grammar
import Typeset.Proofs.Json.NumberReading
import Typeset.Proofs.Json.StringReading
import Typeset.Proofs.Json.Reading
import Typeset.Proofs.Json.Printed
import Typeset.Proofs.Schema.Reloads
import Typeset.Proofs.SExpr.Loading
import Typeset.Proofs.Tree.Loading
import Typeset.Proofs.CSource.Loading
import Typeset.Proofs.Document.Loading
import Typeset.Proofs.Session.Frame
import Typeset.Proofs.CommandLine.Desk
import Typeset.Proofs.CommandLine.Files
import Typeset.Proofs.CommandLine.World
import Typeset.Proofs.CommandLine.Render
import Typeset.Proofs.CommandLine.Verdict
import Typeset.Proofs.Layout.SingleLine
import Typeset.Proofs.Layout.Filling
import Typeset.Proofs.Token.Lines
import Typeset.Proofs.Layout.Packing
import Typeset.Proofs.Layout.Stored
import Typeset.Proofs.Layout.Flattening
import Typeset.Proofs.Token.Probing
import Typeset.Proofs.Resolution.Preferred
import Typeset.Proofs.Layout.Grouped
import Typeset.Proofs.CSource.Literals
import Typeset.Proofs.Layout.JoinedTexts
import Typeset.Proofs.Registry.History
import Typeset.Proofs.Session.Scopes
import Typeset.Proofs.Resolution.Marks
import Typeset.Proofs.Resolution.Shape
