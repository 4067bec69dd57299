import MiniProgram.Color.Basic
import MiniProgram.Color.Names
import MiniProgram.Color.Read
import MiniProgram.CommandLine
import MiniProgram.Component
import MiniProgram.Config
import MiniProgram.Console.Ledger
import MiniProgram.Console.Notice
import MiniProgram.Console.Snippet
import MiniProgram.Console.Window
import MiniProgram.Counting
import MiniProgram.Data.Schema
import MiniProgram.Diagnostic
import MiniProgram.Failure
import MiniProgram.FileSystem.Basic
import MiniProgram.FileSystem.Disk
import MiniProgram.FileSystem.Memory
import MiniProgram.Graph
import MiniProgram.Hierarchy
import MiniProgram.Inspection
import MiniProgram.Json.Fault
import MiniProgram.Json.Number
import MiniProgram.Json.Read
import MiniProgram.Json.Skip
import MiniProgram.Json.Text
import MiniProgram.Json.Write
import MiniProgram.Ledger
import MiniProgram.Main
import MiniProgram.Manifest
import MiniProgram.Markup.Builder
import MiniProgram.Markup.Document
import MiniProgram.Markup.Interpolation
import MiniProgram.Markup.Lexer
import MiniProgram.Markup.Parse
import MiniProgram.Markup.Token
import MiniProgram.Naming
import MiniProgram.Number.Binary
import MiniProgram.Number.Shortest
import MiniProgram.Number.Signed
import MiniProgram.OrderedMap
import MiniProgram.Orphan
import MiniProgram.Path.File
import MiniProgram.Path.Logical
import MiniProgram.Project
import MiniProgram.Proofs.Inspection
import MiniProgram.Proofs.Markup.Walk
import MiniProgram.Proofs.OrderedMap
import MiniProgram.Proofs.Search
import MiniProgram.Report
import MiniProgram.Resolution
import MiniProgram.Run
import MiniProgram.Text.Blank
import MiniProgram.Text.BreakClass
import MiniProgram.Text.Bytes
import MiniProgram.Text.Columns
import MiniProgram.Text.Excerpt
import MiniProgram.Text.Fill
import MiniProgram.Text.Glyph
import MiniProgram.Text.Hex
import MiniProgram.Text.Letter
import MiniProgram.Text.LineBreak
import MiniProgram.Text.Position
import MiniProgram.Text.Printable
import MiniProgram.Text.Quoted
import MiniProgram.Text.Ranges
import MiniProgram.Text.Span
import MiniProgram.Text.Split
import MiniProgram.Toml.Fault
import MiniProgram.Toml.Moment
import MiniProgram.Toml.Quoted
import MiniProgram.Toml.Read
import MiniProgram.Toml.Scalar
import MiniProgram.Toml.Syntax
import MiniProgram.Toml.Token
import MiniProgram.Toml.Tree
import MiniProgram.Vocabulary
import MiniProgram.Proofs.Severity
import MiniProgram.Proofs.Verdict
import MiniProgram.Proofs.BreadthFirst
import MiniProgram.Proofs.Markup.Runs
import MiniProgram.Proofs.Markup.Steps
import MiniProgram.Proofs.Markup.Stream
import MiniProgram.Proofs.Markup.Correspondence
import MiniProgram.Proofs.Markup.Printer
import MiniProgram.Proofs.Markup.RoundTrip
import MiniProgram.Proofs.Markup.Clean
import MiniProgram.Proofs.Ledger
import MiniProgram.Proofs.Stopping
import MiniProgram.Proofs.Markup.Coverage
import MiniProgram.Proofs.Entries
import MiniProgram.Proofs.Confinement
import MiniProgram.Proofs.Routes
import MiniProgram.Proofs.Views
import MiniProgram.Proofs.Orphans
import MiniProgram.Proofs.Paths
import MiniProgram.Proofs.Markup.Places
import MiniProgram.Proofs.Markup.Positions
import MiniProgram.Proofs.Aliases
import MiniProgram.Proofs.Accounts
import MiniProgram.Proofs.Locations
import MiniProgram.Proofs.Graph
import MiniProgram.Proofs.Registry
import MiniProgram.Proofs.OrphanOrder
import MiniProgram.Proofs.Json.Strings
import MiniProgram.Proofs.Json.Members
import MiniProgram.Proofs.AliasKeys
import MiniProgram.Proofs.Highlights
import MiniProgram.Proofs.Markup.Endings
import MiniProgram.Proofs.Markup.Locality
import MiniProgram.Proofs.Markup.Brackets
import MiniProgram.Proofs.ByteOrder
import MiniProgram.Proofs.FileNames
import MiniProgram.Proofs.NormalForms
import MiniProgram.Proofs.SearchBound
import MiniProgram.Proofs.Grouping
import MiniProgram.Proofs.Lines
import MiniProgram.Proofs.Excerpts
import MiniProgram.Proofs.Markup.Interpolation
import MiniProgram.Proofs.Markup.Progress
import MiniProgram.Proofs.Preorder
