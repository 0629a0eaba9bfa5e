import MessageKeys.Extraction
import MessageKeys.Files.Glob
import MessageKeys.Files.PathName
import MessageKeys.Files.Pattern
import MessageKeys.Files.Resolve
import MessageKeys.Files.Tree
import MessageKeys.Format
import MessageKeys.Format.Fault
import MessageKeys.Format.Flat
import MessageKeys.Format.Gettext
import MessageKeys.Format.Nested
import MessageKeys.Job
import MessageKeys.Json.Basic
import MessageKeys.Json.Number
import MessageKeys.Json.Printer
import MessageKeys.Json.Reader
import MessageKeys.Json.Shortest
import MessageKeys.Json.Token
import MessageKeys.KeyTable
import MessageKeys.Lookup
import MessageKeys.Main
import MessageKeys.Markup.Automaton
import MessageKeys.Markup.Forest
import MessageKeys.Markup.Growth
import MessageKeys.Markup.Place
import MessageKeys.Markup.Tag
import MessageKeys.Markup.Token
import MessageKeys.Markup.Tree
import MessageKeys.PostProcessor
import MessageKeys.Proofs.Dialects
import MessageKeys.Proofs.Discovery
import MessageKeys.Proofs.Elsewhere
import MessageKeys.Proofs.EmptyKeys
import MessageKeys.Proofs.Files.Absolute
import MessageKeys.Proofs.Files.Alike
import MessageKeys.Proofs.Files.Elsewhere
import MessageKeys.Proofs.Files.Extension
import MessageKeys.Proofs.Files.Listing
import MessageKeys.Proofs.Files.Pattern
import MessageKeys.Proofs.Files.Resolve
import MessageKeys.Proofs.Files.Search
import MessageKeys.Proofs.Files.SearchAgain
import MessageKeys.Proofs.Files.Spelling
import MessageKeys.Proofs.Files.Survey
import MessageKeys.Proofs.Files.Tree
import MessageKeys.Proofs.Files.Validation
import MessageKeys.Proofs.Files.Writing
import MessageKeys.Proofs.Format.Entries
import MessageKeys.Proofs.Format.Flat
import MessageKeys.Proofs.Format.Gettext
import MessageKeys.Proofs.Format.Indentation
import MessageKeys.Proofs.Format.Layout
import MessageKeys.Proofs.Format.Nested
import MessageKeys.Proofs.Format.ReadBack
import MessageKeys.Proofs.Format.Regrouping
import MessageKeys.Proofs.Format.Rewriting
import MessageKeys.Proofs.Format.RoundTrip
import MessageKeys.Proofs.Job.Again
import MessageKeys.Proofs.Job.EmptyKeys
import MessageKeys.Proofs.Job.Extraction
import MessageKeys.Proofs.Job.FinalTable
import MessageKeys.Proofs.Job.Findings
import MessageKeys.Proofs.Job.History
import MessageKeys.Proofs.Job.Idempotence
import MessageKeys.Proofs.Job.Indentation
import MessageKeys.Proofs.Job.Isolation
import MessageKeys.Proofs.Job.LastEntry
import MessageKeys.Proofs.Job.Output
import MessageKeys.Proofs.Job.Processors
import MessageKeys.Proofs.Job.Regrouping
import MessageKeys.Proofs.Job.Rerun
import MessageKeys.Proofs.Job.Sorting
import MessageKeys.Proofs.Job.Written
import MessageKeys.Proofs.Json.Depth
import MessageKeys.Proofs.Json.Leaves
import MessageKeys.Proofs.Json.Nesting
import MessageKeys.Proofs.Json.Pretty
import MessageKeys.Proofs.Json.Strings
import MessageKeys.Proofs.KeyTable.Algebra
import MessageKeys.Proofs.KeyTable.Entries
import MessageKeys.Proofs.KeyTable.Merge
import MessageKeys.Proofs.KeyTable.Reference
import MessageKeys.Proofs.MarkerCalls
import MessageKeys.Proofs.Markup.Forest
import MessageKeys.Proofs.Markup.Growth
import MessageKeys.Proofs.Markup.Tokens
import MessageKeys.Proofs.Occurrences
import MessageKeys.Proofs.PostProcessor
import MessageKeys.Proofs.Results
import MessageKeys.Proofs.Script.Escapes
import MessageKeys.Proofs.Script.Literals
import MessageKeys.Proofs.Script.MethodCalls
import MessageKeys.Proofs.Script.Places
import MessageKeys.Proofs.Script.Properties
import MessageKeys.Proofs.Script.Renaming
import MessageKeys.Proofs.Script.Strings
import MessageKeys.Proofs.Script.Values
import MessageKeys.Proofs.Script.Wrappers
import MessageKeys.Proofs.Template.BodyBytes
import MessageKeys.Proofs.Template.Bytes
import MessageKeys.Proofs.Template.Interpolation
import MessageKeys.Proofs.Template.Literals
import MessageKeys.Proofs.Template.OperandBytes
import MessageKeys.Proofs.Template.PipeChain
import MessageKeys.Proofs.Template.PipeGrammar
import MessageKeys.Proofs.Template.PipeScan
import MessageKeys.Proofs.Template.Skipped
import MessageKeys.Proofs.Template.TextKeys
import MessageKeys.Proofs.Text.ByteOrder
import MessageKeys.Proofs.Text.Pieces
import MessageKeys.Report
import MessageKeys.Run
import MessageKeys.Script.Grammar
import MessageKeys.Script.Grammar.Annotation
import MessageKeys.Script.Grammar.Class
import MessageKeys.Script.Grammar.Expression
import MessageKeys.Script.Grammar.Function
import MessageKeys.Script.Grammar.Markup
import MessageKeys.Script.Grammar.Name
import MessageKeys.Script.Grammar.Statement
import MessageKeys.Script.Grammar.Type
import MessageKeys.Script.Node
import MessageKeys.Script.Reading
import MessageKeys.Script.Search
import MessageKeys.Script.Strings
import MessageKeys.Script.Token
import MessageKeys.Settings
import MessageKeys.Settings.Arguments
import MessageKeys.Settings.Config
import MessageKeys.Source
import MessageKeys.Template.Directive
import MessageKeys.Template.Interpolation
import MessageKeys.Template.Layout
import MessageKeys.Template.PipeChain
import MessageKeys.Text.Blank
import MessageKeys.Text.Identifier
import MessageKeys.Text.Quoted
import MessageKeys.Text.Split
import MessageKeys.Text.Width
