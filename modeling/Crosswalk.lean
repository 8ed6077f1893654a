import Crosswalk.Batch.Basic
import Crosswalk.Batch.Frame
import Crosswalk.Batch.Source
import Crosswalk.Cache
import Crosswalk.Calendar.Basic
import Crosswalk.Calendar.Reading
import Crosswalk.CommandLine.Arguments
import Crosswalk.CommandLine.Markup
import Crosswalk.CommandLine.Run
import Crosswalk.Destination.Datatypes
import Crosswalk.Destination.Descriptor
import Crosswalk.Destination.Field
import Crosswalk.Digest.Sha256
import Crosswalk.Document.Order
import Crosswalk.Document.Shape
import Crosswalk.Document.Value
import Crosswalk.Filter.Arguments
import Crosswalk.Filter.Chain
import Crosswalk.Filter.Core
import Crosswalk.Filter.Datum
import Crosswalk.Filter.IsoNames
import Crosswalk.Filter.Library
import Crosswalk.Filter.Pipeline
import Crosswalk.Host
import Crosswalk.Host.Bundled
import Crosswalk.Json.Ordered
import Crosswalk.Json.Reader
import Crosswalk.Json.Writer
import Crosswalk.Main
import Crosswalk.Mapping.Config
import Crosswalk.Mapping.Entry
import Crosswalk.Mapping.Include
import Crosswalk.Mapping.Lines
import Crosswalk.Mapping.Load
import Crosswalk.Mapping.Processor
import Crosswalk.Mapping.Stack
import Crosswalk.Mapping.Written
import Crosswalk.Mapping.Xml
import Crosswalk.Number.Binary64
import Crosswalk.Number.Format
import Crosswalk.Number.Numeral
import Crosswalk.Number.Reading
import Crosswalk.Number.Shortest
import Crosswalk.Pairs
import Crosswalk.Project.Basic
import Crosswalk.Project.Environment
import Crosswalk.Project.Settings
import Crosswalk.Proofs.Cache
import Crosswalk.Proofs.Destination.Checked
import Crosswalk.Proofs.Destination.Datatypes
import Crosswalk.Proofs.Destination.Descriptor
import Crosswalk.Proofs.Destination.Field
import Crosswalk.Proofs.Destination.Label
import Crosswalk.Proofs.Destination.Language
import Crosswalk.Proofs.Destination.Options
import Crosswalk.Proofs.Filter.Arguments
import Crosswalk.Proofs.Filter.Call
import Crosswalk.Proofs.Filter.Chain
import Crosswalk.Proofs.Filter.Noid
import Crosswalk.Proofs.Filter.Overlook
import Crosswalk.Proofs.Filter.Slice
import Crosswalk.Proofs.Filter.Split
import Crosswalk.Proofs.Filter.Step
import Crosswalk.Proofs.Filter.Stops
import Crosswalk.Proofs.Filter.Table
import Crosswalk.Proofs.Filter.Tags
import Crosswalk.Proofs.Json.Writer
import Crosswalk.Proofs.Mapping.Base
import Crosswalk.Proofs.Mapping.Built
import Crosswalk.Proofs.Mapping.Calls
import Crosswalk.Proofs.Mapping.Comment
import Crosswalk.Proofs.Mapping.Compose
import Crosswalk.Proofs.Mapping.Dialects
import Crosswalk.Proofs.Mapping.FanOut
import Crosswalk.Proofs.Mapping.Include
import Crosswalk.Proofs.Mapping.Key
import Crosswalk.Proofs.Mapping.KeyValue
import Crosswalk.Proofs.Mapping.Lines
import Crosswalk.Proofs.Mapping.Load
import Crosswalk.Proofs.Mapping.Outline
import Crosswalk.Proofs.Mapping.Querier
import Crosswalk.Proofs.Mapping.Quotation
import Crosswalk.Proofs.Mapping.ReadBack
import Crosswalk.Proofs.Mapping.Sections
import Crosswalk.Proofs.Mapping.Separator
import Crosswalk.Proofs.Mapping.Stack
import Crosswalk.Proofs.Mapping.WellFormed
import Crosswalk.Proofs.Mapping.Written
import Crosswalk.Proofs.Merge
import Crosswalk.Proofs.Number.Digits
import Crosswalk.Proofs.Number.Numeral
import Crosswalk.Proofs.Outcome
import Crosswalk.Proofs.Pairs
import Crosswalk.Proofs.Query.Columns
import Crosswalk.Proofs.Query.Dotted
import Crosswalk.Proofs.Query.Flatten
import Crosswalk.Proofs.Query.Keys
import Crosswalk.Proofs.Query.Leaves
import Crosswalk.Proofs.Record.Building
import Crosswalk.Proofs.Record.EmptyTexts
import Crosswalk.Proofs.Record.Entries
import Crosswalk.Proofs.Record.Override
import Crosswalk.Proofs.Record.Setting
import Crosswalk.Proofs.Record.Shared
import Crosswalk.Proofs.Record.Unreadable
import Crosswalk.Proofs.Template.Compiled
import Crosswalk.Proofs.Template.Ends
import Crosswalk.Proofs.Template.Filling
import Crosswalk.Proofs.Template.Inert
import Crosswalk.Proofs.Template.KnownNames
import Crosswalk.Proofs.Template.Layout
import Crosswalk.Proofs.Template.Leaks
import Crosswalk.Proofs.Template.Masks
import Crosswalk.Proofs.Template.Patterns
import Crosswalk.Proofs.Template.Phases
import Crosswalk.Proofs.Template.Piped
import Crosswalk.Proofs.Template.Quotes
import Crosswalk.Proofs.Template.Reading
import Crosswalk.Proofs.Template.Results
import Crosswalk.Proofs.Template.Rounds
import Crosswalk.Proofs.Template.Segments
import Crosswalk.Proofs.Template.Static
import Crosswalk.Proofs.Text.Blank
import Crosswalk.Proofs.Text.Braces
import Crosswalk.Proofs.Text.Collapse
import Crosswalk.Proofs.Text.Mark
import Crosswalk.Proofs.Text.Outside
import Crosswalk.Proofs.Text.Quote
import Crosswalk.Proofs.Text.Replace
import Crosswalk.Proofs.Text.Words
import Crosswalk.Proofs.Xml.Comment
import Crosswalk.Proofs.Xml.Outline
import Crosswalk.Proofs.Xml.Prologue
import Crosswalk.Proofs.Xml.Reader
import Crosswalk.Proofs.Xml.Tags
import Crosswalk.Query.Backend
import Crosswalk.Query.Dotted
import Crosswalk.Query.Flat
import Crosswalk.Query.Jmes.Eval
import Crosswalk.Query.Jmes.Expr
import Crosswalk.Query.Jmes.Functions
import Crosswalk.Query.Jmes.Parser
import Crosswalk.Query.Jmes.Token
import Crosswalk.Query.JsonPath.Parser
import Crosswalk.Query.JsonPath.Path
import Crosswalk.Query.Slice
import Crosswalk.Query.XPath.Axes
import Crosswalk.Query.XPath.Eval
import Crosswalk.Query.XPath.Expr
import Crosswalk.Query.XPath.Functions
import Crosswalk.Query.XPath.Number
import Crosswalk.Query.XPath.Parser
import Crosswalk.Query.XPath.Result
import Crosswalk.Record.Convert
import Crosswalk.Record.Values
import Crosswalk.Session
import Crosswalk.Store.Basic
import Crosswalk.Store.Files
import Crosswalk.Template.Compile
import Crosswalk.Template.Modifier
import Crosswalk.Template.Placeholder
import Crosswalk.Template.Render
import Crosswalk.Template.Shape
import Crosswalk.Text.Basic
import Crosswalk.Text.Blank
import Crosswalk.Text.Case
import Crosswalk.Text.CaseTable
import Crosswalk.Text.Cut
import Crosswalk.Text.Digit
import Crosswalk.Text.Escape
import Crosswalk.Text.Name
import Crosswalk.Text.Octets
import Crosswalk.Text.Quote
import Crosswalk.Text.Range
import Crosswalk.Text.Scan
import Crosswalk.Text.Word
import Crosswalk.Vocabulary.DublinCore
import Crosswalk.Vocabulary.Load
import Crosswalk.Vocabulary.Register
import Crosswalk.Vocabulary.Schema
import Crosswalk.Xml.Canonical
import Crosswalk.Xml.Detach
import Crosswalk.Xml.Node
import Crosswalk.Xml.Reader
import Crosswalk.Xml.Tree
import Crosswalk.Yaml.File
import Crosswalk.Yaml.Reader
import Crosswalk.Yaml.Scalar
