import HclExport.CommandLine.FileTree
import HclExport.CommandLine.Help
import HclExport.CommandLine.Option
import HclExport.CommandLine.Program
import HclExport.Conversion.Application
import HclExport.Conversion.ConnectorInstance
import HclExport.Conversion.Context
import HclExport.Conversion.Converter
import HclExport.Conversion.Document
import HclExport.Conversion.Draft
import HclExport.Conversion.Emission
import HclExport.Conversion.Flow
import HclExport.Conversion.Flow.Diagram
import HclExport.Conversion.Flow.InputSchema
import HclExport.Conversion.Flow.Settings
import HclExport.Conversion.FlowPolicy
import HclExport.Conversion.Registry
import HclExport.Conversion.Variable
import HclExport.Document.Path
import HclExport.Export.Batch
import HclExport.Export.Intake
import HclExport.Export.Metrics
import HclExport.Export.MetricsDescription
import HclExport.Export.Provider
import HclExport.Export.Report
import HclExport.Export.Request
import HclExport.Export.Run
import HclExport.Export.Settings
import HclExport.Fault
import HclExport.Fault.Description
import HclExport.Graph.Basic
import HclExport.Graph.Cycle
import HclExport.Graph.Missing
import HclExport.Graph.Order
import HclExport.Graph.Ownership
import HclExport.Graph.Reference
import HclExport.Graph.Report
import HclExport.Hcl.Block
import HclExport.Hcl.Expression
import HclExport.Hcl.Quoted
import HclExport.Hcl.Value
import HclExport.Hcl.Writer
import HclExport.Import
import HclExport.InputVariable
import HclExport.Json.Basic
import HclExport.Json.Display
import HclExport.Json.Printer
import HclExport.Json.Reader
import HclExport.Logging
import HclExport.Main
import HclExport.Number.Binary64
import HclExport.Number.Shortest
import HclExport.Proofs.Conversion.Block
import HclExport.Proofs.Conversion.Draft
import HclExport.Proofs.Conversion.Emission
import HclExport.Proofs.Conversion.NoFault
import HclExport.Proofs.Conversion.Requests
import HclExport.Proofs.Conversion.Tidy
import HclExport.Proofs.Conversion.TidyBlock
import HclExport.Proofs.Document.Path
import HclExport.Proofs.Export.Alike
import HclExport.Proofs.Export.Backing
import HclExport.Proofs.Export.Declared
import HclExport.Proofs.Export.Intake
import HclExport.Proofs.Export.Missing
import HclExport.Proofs.Export.Reference
import HclExport.Proofs.Export.Run
import HclExport.Proofs.Export.Secrecy
import HclExport.Proofs.Graph.Cycle
import HclExport.Proofs.Graph.Growth
import HclExport.Proofs.Graph.History
import HclExport.Proofs.Graph.Order
import HclExport.Proofs.Graph.Ownership
import HclExport.Proofs.Graph.Reference
import HclExport.Proofs.Hcl.Header
import HclExport.Proofs.Hcl.Lexical
import HclExport.Proofs.Hcl.Tidy
import HclExport.Proofs.Resource.FreshName
import HclExport.Proofs.Resource.KeyText
import HclExport.Proofs.Text.Word
import HclExport.Resource.Address
import HclExport.Resource.Count
import HclExport.Resource.Kind
import HclExport.Resource.Name
import HclExport.Resource.NameRegistry
import HclExport.Resource.Schema
import HclExport.Sorting
import HclExport.Text.Blank
import HclExport.Text.CodeRange
import HclExport.Text.ControlSequence
import HclExport.Text.LetterCase
import HclExport.Text.LetterCase.Table
import HclExport.Text.Padding
import HclExport.Text.Printable
import HclExport.Text.Utf8
import HclExport.Proofs.Export.Lexical
import HclExport.Proofs.Export.Admission
import HclExport.Proofs.Export.Outcome
import HclExport.Proofs.Export.Census
import HclExport.Proofs.Export.Clean
import HclExport.Proofs.Hcl.Order
import HclExport.Proofs.Conversion.Agreement
import HclExport.Proofs.Export.Permutation
import HclExport.Proofs.Export.InputNames
import HclExport.Proofs.Conversion.Settling
import HclExport.Proofs.Conversion.Skipping
import HclExport.Proofs.Export.Lenient
import HclExport.Proofs.Hcl.Outline
import HclExport.Proofs.Export.Headers
import HclExport.Proofs.Export.Inputs
import HclExport.Proofs.Export.Imports
import HclExport.Proofs.Export.Skipping
import HclExport.Proofs.Export.Requesting
import HclExport.Proofs.Conversion.Masks
import HclExport.Proofs.Export.Masks
import HclExport.Proofs.Export.Sealed
import HclExport.Proofs.Export.Reasons
import HclExport.Proofs.Graph.Wave
import HclExport.Proofs.Graph.Network
import HclExport.Proofs.Graph.Levels
import HclExport.Proofs.Graph.Rank
import HclExport.Proofs.Export.Ranking
import HclExport.Proofs.Export.Local
import HclExport.Proofs.Text.Utf8
import HclExport.Proofs.Json.Limits
import HclExport.Proofs.Export.Reading
import HclExport.Proofs.Sorting
import HclExport.Proofs.Conversion.Matching
import HclExport.Proofs.Export.Resembling
import HclExport.Proofs.Export.Withheld
import HclExport.Proofs.Json.Order
import HclExport.Proofs.Hcl.Same
import HclExport.Proofs.Conversion.Order
import HclExport.Proofs.Conversion.FlowOrder
import HclExport.Proofs.Export.Order
import HclExport.Proofs.Hcl.Quoted
import HclExport.Proofs.Hcl.Unambiguous
import HclExport.Proofs.Hcl.Comments
import HclExport.Proofs.Hcl.Native
import HclExport.Proofs.Resource.Grants
import HclExport.Proofs.Document.Search
import HclExport.Proofs.Resource.Labels
import HclExport.Proofs.Export.Identifiers
import HclExport.Proofs.Graph.Depth
import HclExport.Proofs.Graph.Issues
import HclExport.Proofs.Conversion.DiagramKeys
import HclExport.Proofs.Conversion.EmbeddedSchemas
import HclExport.Proofs.Document.Rearranged
import HclExport.Proofs.Graph.Rearranged
import HclExport.Proofs.Conversion.SameBut
import HclExport.Proofs.Conversion.FlowRearranged
import HclExport.Proofs.Graph.Merging
import HclExport.Proofs.Conversion.ValueLine
import HclExport.Proofs.Export.Merging
import HclExport.Proofs.Hcl.Escapes
import HclExport.Proofs.Document.Split
import HclExport.Proofs.Hcl.Indent
import HclExport.Proofs.Resource.Todos
import HclExport.Proofs.Document.Told
import HclExport.Proofs.Conversion.Parts
import HclExport.Proofs.Conversion.Composed
import HclExport.Proofs.Conversion.ComposedBlock
import HclExport.Proofs.Export.Todos
