import QueryHarvest.Calendar
import QueryHarvest.Capture.Clock
import QueryHarvest.Capture.Line
import QueryHarvest.Capture.Log
import QueryHarvest.Capture.Marker
import QueryHarvest.Capture.Record
import QueryHarvest.Capture.Recorder
import QueryHarvest.Capture.Storable
import QueryHarvest.Command.Analyze
import QueryHarvest.Command.Arguments
import QueryHarvest.Command.Care
import QueryHarvest.Command.Generate
import QueryHarvest.Command.Grammar
import QueryHarvest.Command.Reading
import QueryHarvest.Report
import QueryHarvest.Command.Run
import QueryHarvest.Files.Error
import QueryHarvest.Files.Path
import QueryHarvest.Files.Tree
import QueryHarvest.Json.Reader
import QueryHarvest.Json.Writer
import QueryHarvest.Main
import QueryHarvest.Notice
import QueryHarvest.Number.Binary64
import QueryHarvest.Number.Decimal
import QueryHarvest.Number.Integer
import QueryHarvest.Number.Shortest
import QueryHarvest.Proofs.Capture.Breaks
import QueryHarvest.Proofs.Capture.Named
import QueryHarvest.Proofs.Capture.Parameters
import QueryHarvest.Proofs.Capture.Policies
import QueryHarvest.Proofs.Capture.Positional
import QueryHarvest.Proofs.Capture.Recording
import QueryHarvest.Proofs.Capture.Relocation
import QueryHarvest.Proofs.Capture.RoundTrip
import QueryHarvest.Proofs.Capture.Stretches
import QueryHarvest.Proofs.Command.Analyze
import QueryHarvest.Proofs.Command.Generate
import QueryHarvest.Proofs.Distinct
import QueryHarvest.Proofs.Files.Removing
import QueryHarvest.Proofs.Files.Writing
import QueryHarvest.Proofs.Json.Kinds
import QueryHarvest.Proofs.Json.Numbers
import QueryHarvest.Proofs.Json.Pieces
import QueryHarvest.Proofs.Json.Reading
import QueryHarvest.Proofs.Json.Relocation
import QueryHarvest.Proofs.Json.RoundTrip
import QueryHarvest.Proofs.Json.Steps
import QueryHarvest.Proofs.Json.Strings
import QueryHarvest.Proofs.Number.Digits
import QueryHarvest.Proofs.Number.Rounding
import QueryHarvest.Proofs.Outcome
import QueryHarvest.Proofs.Session.Clauses
import QueryHarvest.Proofs.Session.Coverage
import QueryHarvest.Proofs.Session.Distinctness
import QueryHarvest.Proofs.Session.Ending
import QueryHarvest.Proofs.Session.Indifference
import QueryHarvest.Proofs.Session.Permutation
import QueryHarvest.Proofs.Session.Summary
import QueryHarvest.Proofs.Sql.Arity
import QueryHarvest.Proofs.Sql.Conjunction
import QueryHarvest.Proofs.Sql.Denotation
import QueryHarvest.Proofs.Sql.Extraction
import QueryHarvest.Proofs.Sql.Indifference
import QueryHarvest.Proofs.Sql.Layout
import QueryHarvest.Proofs.Sql.Lexemes
import QueryHarvest.Proofs.Sql.NormalForm
import QueryHarvest.Proofs.Sql.Placeholders
import QueryHarvest.Proofs.Sql.Provenance
import QueryHarvest.Proofs.Sql.Reading
import QueryHarvest.Proofs.Sql.Runs
import QueryHarvest.Proofs.Sql.Search
import QueryHarvest.Proofs.Sql.Shapes
import QueryHarvest.Proofs.Sql.Soundness
import QueryHarvest.Proofs.Sql.Sources
import QueryHarvest.Proofs.Sql.Stripping
import QueryHarvest.Proofs.Sql.Twins
import QueryHarvest.Proofs.Subset.Commands
import QueryHarvest.Proofs.Subset.Jobs
import QueryHarvest.Proofs.Text.Characters
import QueryHarvest.Proofs.Text.Lines
import QueryHarvest.Proofs.Text.Places
import QueryHarvest.Proofs.Text.Searching
import QueryHarvest.Proofs.Text.Utf8
import QueryHarvest.Proofs.Value.Cells
import QueryHarvest.Proofs.Value.Merging
import QueryHarvest.Proofs.Value.SortKey
import QueryHarvest.Session.Aggregate
import QueryHarvest.Session.Analysis
import QueryHarvest.Session.Fragment
import QueryHarvest.Settings.Basic
import QueryHarvest.Settings.EnvFile
import QueryHarvest.Settings.Environment
import QueryHarvest.Sql.Comment
import QueryHarvest.Sql.Condition
import QueryHarvest.Sql.NormalForm
import QueryHarvest.Sql.Operator
import QueryHarvest.Sql.Parameter
import QueryHarvest.Sql.Predicate
import QueryHarvest.Sql.Shape
import QueryHarvest.Sql.Table
import QueryHarvest.Sql.Word
import QueryHarvest.Subset.Archive
import QueryHarvest.Subset.Model
import QueryHarvest.Subset.Tool
import QueryHarvest.Subset.Workspace
import QueryHarvest.Target.Basic
import QueryHarvest.Target.Url
import QueryHarvest.Text.Blank
import QueryHarvest.Text.Case
import QueryHarvest.Text.CodeRange
import QueryHarvest.Text.Cursor
import QueryHarvest.Text.Digit
import QueryHarvest.Text.Line
import QueryHarvest.Text.Pattern
import QueryHarvest.Text.Quoted
import QueryHarvest.Text.Table.Case
import QueryHarvest.Text.Table.Digit
import QueryHarvest.Text.Table.Printable
import QueryHarvest.Text.Table.Word
import QueryHarvest.Text.Utf8
import QueryHarvest.Text.Word
import QueryHarvest.Uuid
import QueryHarvest.Value.Basic
import QueryHarvest.Value.Display
import QueryHarvest.Value.Frozen
import QueryHarvest.Value.Literal
import QueryHarvest.Value.Order
import QueryHarvest.Proofs.Session.Ascending
import QueryHarvest.Proofs.Session.Refusal
import QueryHarvest.Proofs.Sql.References
import QueryHarvest.Proofs.Sql.Tables
import QueryHarvest.Proofs.Session.Attribution
import QueryHarvest.Proofs.Sql.Backtracking
import QueryHarvest.Proofs.Sql.Claiming
import QueryHarvest.Proofs.Sql.DigitRuns
import QueryHarvest.Proofs.Sql.Identifiers
import QueryHarvest.Proofs.Sql.Joins
import QueryHarvest.Proofs.Sql.Lists
import QueryHarvest.Proofs.Capture.Rewriting
import QueryHarvest.Proofs.Sql.Literals
import QueryHarvest.Proofs.Session.Origins
import QueryHarvest.Proofs.Subset.Lines
import QueryHarvest.Capture.Engine
import QueryHarvest.Proofs.Capture.Buffer
import QueryHarvest.Proofs.Capture.Storing
import QueryHarvest.Proofs.Text.Separated
import QueryHarvest.Proofs.Value.Parts
import QueryHarvest.Proofs.Value.Literals
import QueryHarvest.Proofs.Value.Sameness
import QueryHarvest.Proofs.Json.Canonical
import QueryHarvest.Proofs.Session.Objects
import QueryHarvest.Proofs.Session.Rendering
import QueryHarvest.Proofs.Session.ToldApart
import QueryHarvest.Proofs.Sql.Squeezing
import QueryHarvest.Proofs.Sql.Shortcut
import QueryHarvest.Proofs.Text.LetterCase
import QueryHarvest.Proofs.Sql.LetterCase
import QueryHarvest.Proofs.Subset.Silence
import QueryHarvest.Proofs.Command.Silence
import QueryHarvest.Proofs.Files.Below
import QueryHarvest.Proofs.Subset.Unpacking
import QueryHarvest.Proofs.Subset.Flattening
