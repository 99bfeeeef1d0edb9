import Pushdown.Alphabet
import Pushdown.Alphabet.Declare
import Pushdown.Automaton
import Pushdown.Automaton.Builder
import Pushdown.CommandLine.Arguments
import Pushdown.CommandLine.Session
import Pushdown.Decimal.Binary
import Pushdown.Decimal.Shortest
import Pushdown.Definition.Assembly
import Pushdown.Definition.Cursor
import Pushdown.Definition.Files
import Pushdown.Definition.Layout
import Pushdown.Definition.Load
import Pushdown.Definition.Report
import Pushdown.Error
import Pushdown.Execution
import Pushdown.FileTree
import Pushdown.Interchange
import Pushdown.Json.Document
import Pushdown.Json.Fault
import Pushdown.Json.Format
import Pushdown.Json.Literal
import Pushdown.Json.Numeral
import Pushdown.Json.Reader
import Pushdown.Json.Shape
import Pushdown.Json.Skip
import Pushdown.Limits
import Pushdown.Log
import Pushdown.Main
import Pushdown.Proofs.Alphabet.WithoutEpsilon
import Pushdown.Proofs.Automaton.Layout
import Pushdown.Proofs.Automaton.Names
import Pushdown.Proofs.Automaton.Summary
import Pushdown.Proofs.Builder.Atomic
import Pushdown.Proofs.Builder.Calls
import Pushdown.Proofs.Builder.Closed
import Pushdown.Proofs.Builder.InPlace
import Pushdown.Proofs.Builder.Refusals
import Pushdown.Proofs.CommandLine.Session
import Pushdown.Proofs.Definition.Alike
import Pushdown.Proofs.Definition.Assembly
import Pushdown.Proofs.Definition.Built
import Pushdown.Proofs.Definition.Directory
import Pushdown.Proofs.Definition.Failures
import Pushdown.Proofs.Definition.FirstFault
import Pushdown.Proofs.Definition.IdleLines
import Pushdown.Proofs.Definition.LineEnds
import Pushdown.Proofs.Definition.LineFormat
import Pushdown.Proofs.Definition.Meaning
import Pushdown.Proofs.Definition.OffendingLine
import Pushdown.Proofs.Definition.Places
import Pushdown.Proofs.Definition.Position
import Pushdown.Proofs.Definition.Printing
import Pushdown.Proofs.Definition.RoundTrip
import Pushdown.Proofs.Definition.RowReader
import Pushdown.Proofs.Definition.Rows
import Pushdown.Proofs.Definition.Unplaced
import Pushdown.Proofs.Definition.Viable
import Pushdown.Proofs.FileTree.Paths
import Pushdown.Proofs.Interchange
import Pushdown.Proofs.Json.Numerals
import Pushdown.Proofs.Json.Records
import Pushdown.Proofs.Json.RoundTrip
import Pushdown.Proofs.Json.Texts
import Pushdown.Proofs.Sample.Languages
import Pushdown.Proofs.Sample.Loaded
import Pushdown.Proofs.Search.Alike
import Pushdown.Proofs.Search.Alternatives
import Pushdown.Proofs.Search.Bound
import Pushdown.Proofs.Search.FiniteTree
import Pushdown.Proofs.Search.LevelOrder
import Pushdown.Proofs.Search.Lockstep
import Pushdown.Proofs.Search.Observation
import Pushdown.Proofs.Search.Reachability
import Pushdown.Proofs.Search.RealTime
import Pushdown.Proofs.Search.Rounds
import Pushdown.Proofs.Search.Safety
import Pushdown.Proofs.Search.Traversal
import Pushdown.Proofs.Search.Tree
import Pushdown.Proofs.Search.WordBound
import Pushdown.Proofs.Search.WrittenEpsilon
import Pushdown.Proofs.Stack.Contents
import Pushdown.Proofs.Transition.Additions
import Pushdown.Proofs.Transition.ByKey
import Pushdown.Proofs.Transition.Table
import Pushdown.Queue
import Pushdown.Sample
import Pushdown.Search
import Pushdown.Search.Trace
import Pushdown.Stack
import Pushdown.Summary
import Pushdown.Symbol
import Pushdown.Text.Lines
import Pushdown.Text.Plain
import Pushdown.Text.Quoted
import Pushdown.Transition.Table
