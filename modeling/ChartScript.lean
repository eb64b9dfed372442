import ChartScript.Text.Blank
import ChartScript.Text.Lines
import ChartScript.Text.Quotation
import ChartScript.Text.Digits
import ChartScript.Decimal.Layout
import ChartScript.Series.Strength
import ChartScript.Series.Range
import ChartScript.Arithmetic.Basic
import ChartScript.Arithmetic.Parse
import ChartScript.Color
import ChartScript.Expression
import ChartScript.Plot
import ChartScript.Script.Basic
import ChartScript.Run.Pipeline
import ChartScript.Json.Token
import ChartScript.Json.Parse
import ChartScript.Json.Write
import ChartScript.Json.Number
import ChartScript.Document
import ChartScript.Calendar
import ChartScript.Text.LowerCase
import ChartScript.Source.Basic
import ChartScript.Command.Basic
import ChartScript.Command.Line
import ChartScript.Files.Tree
import ChartScript.Main
import ChartScript.Proofs.Run.Agreement
import ChartScript.Proofs.Run.LookAhead
import ChartScript.Proofs.Run.Shape
import ChartScript.Proofs.Run.Invariant
import ChartScript.Proofs.Run.Definitions
import ChartScript.Proofs.Arithmetic.Recognition
import ChartScript.Proofs.Json.Reading
import ChartScript.Proofs.Command.Ending
import ChartScript.Proofs.Document
import ChartScript.Proofs.Json.Number
import ChartScript.Proofs.Decimal.Binary
import ChartScript.Proofs.Script.Rows
import ChartScript.Proofs.Run.Layout
import ChartScript.Proofs.Run.DeadAssignment
import ChartScript.Proofs.Run.Exchange
import ChartScript.Proofs.Arithmetic.Replacement
import ChartScript.Proofs.Script.Assignment
import ChartScript.Proofs.Run.Naming
import ChartScript.Proofs.Script.CanonicalText
import ChartScript.Proofs.Bar
import ChartScript.Proofs.Run.Chronology
import ChartScript.Proofs.Series.Definedness
import ChartScript.Proofs.Json.Literal
import ChartScript.Proofs.Source
import ChartScript.Proofs.Series.Smoothing
import ChartScript.Proofs.Series.Strength
import ChartScript.Proofs.Series.Average
import ChartScript.Proofs.Series.Oscillator
import ChartScript.Proofs.Series.TrueRange
import ChartScript.Proofs.Series.Memory
import ChartScript.Proofs.Series.Indexed
import ChartScript.Proofs.Arithmetic.Offence
import ChartScript.Proofs.Arithmetic.Spacing
import ChartScript.Proofs.Script.Comment
import ChartScript.Proofs.Arguments.Padding
import ChartScript.Proofs.Script.PlotTitle
import ChartScript.Proofs.Script.Caret
import ChartScript.Proofs.Script.Offset
import ChartScript.Proofs.Arguments.TopLevel
import ChartScript.Proofs.Arguments.Matching
import ChartScript.Proofs.Indicator.Parameters
import ChartScript.Proofs.Indicator.Display
import ChartScript.Proofs.Script.Namespace
import ChartScript.Proofs.Source.Cells
import ChartScript.Proofs.Source.Listing
import ChartScript.Proofs.Run.Reports
