import ApiScaffold.Calendar
import ApiScaffold.CommandLine.Event
import ApiScaffold.CommandLine.Flag
import ApiScaffold.CommandLine.Help
import ApiScaffold.CommandLine.Invocation
import ApiScaffold.CommandLine.Item
import ApiScaffold.CommandLine.Program
import ApiScaffold.Data
import ApiScaffold.Decimal.Arithmetic
import ApiScaffold.Decimal.Binary64
import ApiScaffold.Decimal.Number
import ApiScaffold.Decimal.Shortest
import ApiScaffold.Document
import ApiScaffold.Failure
import ApiScaffold.Feature.Basic
import ApiScaffold.Feature.Documents
import ApiScaffold.Feature.Modules
import ApiScaffold.Feature.Review
import ApiScaffold.Feature.Sheet
import ApiScaffold.Field.Basic
import ApiScaffold.Field.Mapping
import ApiScaffold.Field.Rule
import ApiScaffold.Field.Validator
import ApiScaffold.Generation
import ApiScaffold.Identifier
import ApiScaffold.Json.Layout
import ApiScaffold.Json.Printer
import ApiScaffold.Json.Quoted
import ApiScaffold.Json.Reader
import ApiScaffold.Keyed
import ApiScaffold.Log
import ApiScaffold.Log.Format
import ApiScaffold.Log.Palette
import ApiScaffold.Main
import ApiScaffold.Notes
import ApiScaffold.Path
import ApiScaffold.Project.Documents
import ApiScaffold.Project.EntryPoint
import ApiScaffold.Project.Manifest
import ApiScaffold.Project.Readme
import ApiScaffold.Project.Sheet
import ApiScaffold.Proofs.CommandLine.AllOrNothing
import ApiScaffold.Proofs.CommandLine.Clauses
import ApiScaffold.Proofs.CommandLine.Declaring
import ApiScaffold.Proofs.CommandLine.SkipFlags
import ApiScaffold.Proofs.Decimal.Nearest
import ApiScaffold.Proofs.Decimal.Overflow
import ApiScaffold.Proofs.Decimal.Reading
import ApiScaffold.Proofs.Decimal.Shortest
import ApiScaffold.Proofs.Feature.Bound
import ApiScaffold.Proofs.Feature.Confinement
import ApiScaffold.Proofs.Feature.Fields
import ApiScaffold.Proofs.Feature.Imports
import ApiScaffold.Proofs.Feature.Lists
import ApiScaffold.Proofs.Feature.Name
import ApiScaffold.Proofs.Feature.Places
import ApiScaffold.Proofs.Feature.Required
import ApiScaffold.Proofs.Feature.Scope
import ApiScaffold.Proofs.Feature.Sources
import ApiScaffold.Proofs.Feature.Spelling
import ApiScaffold.Proofs.Feature.Warnings
import ApiScaffold.Proofs.Field.Accessor
import ApiScaffold.Proofs.Field.Apostrophe
import ApiScaffold.Proofs.Field.Choice
import ApiScaffold.Proofs.Field.Composition
import ApiScaffold.Proofs.Field.Fitting
import ApiScaffold.Proofs.Field.Grammar
import ApiScaffold.Proofs.Field.Idle
import ApiScaffold.Proofs.Field.Literal
import ApiScaffold.Proofs.Field.Mapping
import ApiScaffold.Proofs.Field.Payload
import ApiScaffold.Proofs.Field.Rule
import ApiScaffold.Proofs.Field.Sample
import ApiScaffold.Proofs.Field.Specification
import ApiScaffold.Proofs.Field.Views
import ApiScaffold.Proofs.Generation.Addition
import ApiScaffold.Proofs.Generation.Calls
import ApiScaffold.Proofs.Generation.Frame
import ApiScaffold.Proofs.Generation.Fresh
import ApiScaffold.Proofs.Generation.Growth
import ApiScaffold.Proofs.Generation.Runs
import ApiScaffold.Proofs.Generation.Stages
import ApiScaffold.Proofs.Generation.Steps
import ApiScaffold.Proofs.Generation.Success
import ApiScaffold.Proofs.Identifier
import ApiScaffold.Proofs.Json
import ApiScaffold.Proofs.Json.Numeral
import ApiScaffold.Proofs.Json.OneLine
import ApiScaffold.Proofs.Json.Reading
import ApiScaffold.Proofs.Keyed
import ApiScaffold.Proofs.Keyed.Blocks
import ApiScaffold.Proofs.Path
import ApiScaffold.Proofs.Path.Descent
import ApiScaffold.Proofs.Project.Declarations
import ApiScaffold.Proofs.Project.Emission
import ApiScaffold.Proofs.Project.EntryPoint
import ApiScaffold.Proofs.Project.Links
import ApiScaffold.Proofs.Project.Manifest
import ApiScaffold.Proofs.Project.Package
import ApiScaffold.Proofs.Project.Readme
import ApiScaffold.Proofs.Project.Recovery
import ApiScaffold.Proofs.Project.Repeated
import ApiScaffold.Proofs.Project.Reprint
import ApiScaffold.Proofs.Project.Requests
import ApiScaffold.Proofs.Project.Shell
import ApiScaffold.Proofs.Registry.Registering
import ApiScaffold.Proofs.Registry.Reload
import ApiScaffold.Proofs.Registry.RoundTrip
import ApiScaffold.Proofs.Registry.TextFile
import ApiScaffold.Proofs.Report
import ApiScaffold.Proofs.Review
import ApiScaffold.Proofs.Run
import ApiScaffold.Proofs.Run.Calls
import ApiScaffold.Proofs.Run.Outcome
import ApiScaffold.Proofs.Run.Quiet
import ApiScaffold.Proofs.Settings.Independence
import ApiScaffold.Proofs.Settings.Loading
import ApiScaffold.Proofs.Settings.Overrides
import ApiScaffold.Proofs.Settings.Reading
import ApiScaffold.Proofs.Settings.Rereading
import ApiScaffold.Proofs.Settings.Soundness
import ApiScaffold.Proofs.Spelled
import ApiScaffold.Proofs.Text.Blank
import ApiScaffold.Proofs.Text.Breaks
import ApiScaffold.Proofs.Text.Capital
import ApiScaffold.Proofs.Text.Digit
import ApiScaffold.Proofs.Text.Lines
import ApiScaffold.Proofs.Text.Segment
import ApiScaffold.Proofs.Text.Trim
import ApiScaffold.Proofs.Toolchain.Preflight
import ApiScaffold.Proofs.Tree
import ApiScaffold.Proofs.Tree.Action
import ApiScaffold.Proofs.Tree.Frame
import ApiScaffold.Proofs.Tree.Lay
import ApiScaffold.Proofs.Tree.Make
import ApiScaffold.Proofs.TypeScript.Balance
import ApiScaffold.Proofs.TypeScript.Links
import ApiScaffold.Proofs.TypeScript.Quiet
import ApiScaffold.Proofs.TypeScript.Reading
import ApiScaffold.Proofs.TypeScript.Resolution
import ApiScaffold.Proofs.TypeScript.Schema
import ApiScaffold.Proofs.TypeScript.Scope
import ApiScaffold.Proofs.Yaml.Keys
import ApiScaffold.Raw
import ApiScaffold.Registry
import ApiScaffold.Report
import ApiScaffold.Report.Call
import ApiScaffold.Review
import ApiScaffold.Run
import ApiScaffold.Settings
import ApiScaffold.Settings.Load
import ApiScaffold.Settings.Numeral
import ApiScaffold.Settings.Reading
import ApiScaffold.Spelled
import ApiScaffold.Text.Article
import ApiScaffold.Text.Base64
import ApiScaffold.Text.Character
import ApiScaffold.Text.Cut
import ApiScaffold.Text.Letter
import ApiScaffold.Text.Literal
import ApiScaffold.Text.Utf8
import ApiScaffold.Text.Word
import ApiScaffold.Toolchain
import ApiScaffold.Toolchain.Preflight
import ApiScaffold.Tree
import ApiScaffold.Tree.Content
import ApiScaffold.TypeScript.Module
import ApiScaffold.Yaml.Character
import ApiScaffold.Yaml.Node
import ApiScaffold.Yaml.Numeral
import ApiScaffold.Yaml.Tag
import ApiScaffold.Yaml.Timestamp
import ApiScaffold.Yaml.Token
import ApiScaffold.Yaml.Token.Block
import ApiScaffold.Yaml.Token.Lexer
import ApiScaffold.Yaml.Token.Plain
import ApiScaffold.Yaml.Token.Property
import ApiScaffold.Yaml.Token.Quoted
import ApiScaffold.Yaml.Value
