import WhereEditor.Clause
import WhereEditor.Command.Basic
import WhereEditor.Command.Print
import WhereEditor.Command.Run
import WhereEditor.Command.Sentence
import WhereEditor.Command.Token
import WhereEditor.Draft.Basic
import WhereEditor.Draft.Rows
import WhereEditor.Error
import WhereEditor.Json.Basic
import WhereEditor.Json.Read
import WhereEditor.Main
import WhereEditor.Query.Cql
import WhereEditor.Query.Dialect
import WhereEditor.Query.Filter
import WhereEditor.Query.Sql
import WhereEditor.Query.Style
import WhereEditor.Settings.Basic
import WhereEditor.Settings.File
import WhereEditor.Shell
import WhereEditor.Text.Backspace
import WhereEditor.Text.Character
import WhereEditor.Text.Cluster
import WhereEditor.Text.ClusterTables
import WhereEditor.Text.Decimal
import WhereEditor.Time.Calendar
import WhereEditor.Time.Clock
import WhereEditor.Time.DateText
import WhereEditor.Time.Instant
import WhereEditor.Time.Layout
import WhereEditor.Time.Mail
import WhereEditor.Time.Reading
import WhereEditor.Tree.Basic
import WhereEditor.Tree.Forest
import WhereEditor.Tree.Lemmas
import WhereEditor.Tree.Margin
import WhereEditor.Tree.Place
import WhereEditor.Tree.Selection
import WhereEditor.Value
import WhereEditor.Vocabulary.Operator
import WhereEditor.Vocabulary.Preset
import WhereEditor.Vocabulary.Table
import WhereEditor.Proofs.Support
import WhereEditor.Proofs.Tree.Arity
import WhereEditor.Proofs.Tree.Edit
import WhereEditor.Proofs.Tree.Ids
import WhereEditor.Proofs.Tree.Selection
import WhereEditor.Proofs.Tree.Sound
import WhereEditor.Proofs.Tree.Links
import WhereEditor.Proofs.Tree.Frame
import WhereEditor.Proofs.Tree.Outline
import WhereEditor.Proofs.Time.Range
import WhereEditor.Proofs.Query.Pieces
import WhereEditor.Proofs.Query.Phrases
import WhereEditor.Proofs.Tree.Clauses
import WhereEditor.Proofs.Tree.Prune
import WhereEditor.Proofs.Draft.Action
import WhereEditor.Proofs.Draft.Deletion
import WhereEditor.Proofs.Draft.Writes
import WhereEditor.Proofs.Draft.Types
import WhereEditor.Proofs.Draft.Compile
import WhereEditor.Proofs.Arena.Basic
import WhereEditor.Proofs.Arena.Holds
import WhereEditor.Proofs.Arena.Edits
import WhereEditor.Proofs.Arena.Represents
import WhereEditor.Proofs.Draft.Conjunction
import WhereEditor.Proofs.Command.Tiling
import WhereEditor.Proofs.Draft.Identity
import WhereEditor.Proofs.Draft.Idle
import WhereEditor.Proofs.Text.Decimal
import WhereEditor.Proofs.Command.Arguments
import WhereEditor.Proofs.Command.Grammar
import WhereEditor.Proofs.Command.RoundTrip
import WhereEditor.Proofs.Command.Culprit
import WhereEditor.Proofs.Command.Continuation
import WhereEditor.Proofs.Tree.Ascent
import WhereEditor.Proofs.Tree.Columns
import WhereEditor.Proofs.Tree.Deepest
import WhereEditor.Proofs.Tree.Descent
import WhereEditor.Proofs.Tree.Foremost
import WhereEditor.Proofs.Tree.Marking
import WhereEditor.Proofs.Tree.Cells
import WhereEditor.Proofs.Tree.Scan
import WhereEditor.Proofs.Text.Blank
import WhereEditor.Proofs.Draft.Rows
import WhereEditor.Proofs.Tree.Grouping
import WhereEditor.Proofs.Draft.Levels
import WhereEditor.Proofs.Tree.Rows
import WhereEditor.Proofs.Tree.Undo
import WhereEditor.Proofs.Tree.Unwrap
import WhereEditor.Proofs.Tree.Pairs
import WhereEditor.Proofs.Tree.Growth
import WhereEditor.Proofs.Tree.Insertion
import WhereEditor.Proofs.Query.Reading
import WhereEditor.Proofs.Draft.Range
import WhereEditor.Proofs.Draft.Addition
import WhereEditor.Proofs.Arena.Guarded
import WhereEditor.Proofs.Arena.Walks
import WhereEditor.Proofs.Arena.Bounds
import WhereEditor.Proofs.Arena.Search
import WhereEditor.Proofs.Time.Calendar
import WhereEditor.Proofs.Time.Stamp
import WhereEditor.Proofs.Time.Wall
import WhereEditor.Proofs.Time.Window
import WhereEditor.Proofs.Time.Ticks
import WhereEditor.Proofs.Time.Elements
import WhereEditor.Proofs.Time.Layouts
import WhereEditor.Proofs.Time.Proper
import WhereEditor.Proofs.Query.Moment
import WhereEditor.Proofs.Query.Padding
import WhereEditor.Proofs.Query.Reference
import WhereEditor.Proofs.Query.Nesting
import WhereEditor.Proofs.Json.Strings
import WhereEditor.Proofs.Json.Grammar
import WhereEditor.Proofs.Json.Soundness
import WhereEditor.Proofs.Settings.Record
import WhereEditor.Proofs.Settings.RoundTrip
