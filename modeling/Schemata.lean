import Schemata.Number.Layout
import Schemata.Text.Blank
import Schemata.Text.Quoted
import Schemata.Datum
import Schemata.Record
import Schemata.Json.Basic
import Schemata.Json.Number
import Schemata.Json.Reader
import Schemata.Graph.Basic
import Schemata.Graph.Codec
import Schemata.Graph.JsonText
import Schemata.Diagnostic
import Schemata.Schema.Basic
import Schemata.Schema.Codec
import Schemata.Normalize.Classification
import Schemata.Normalize.Indexes
import Schemata.Normalize.Relations
import Schemata.Normalize.Schema
import Schemata.Schema.Validation
import Schemata.Prisma.Document
import Schemata.Schema.Checksum
import Schemata.Target
import Schemata.Yaml.Block
import Schemata.Yaml.Plain
import Schemata.Yaml.Quoted
import Schemata.Yaml.Document
import Schemata.Graph.YamlText
import Schemata.Config.Basic
import Schemata.Config.Codec
import Schemata.Config.YamlText
import Schemata.File.Path
import Schemata.File.System
import Schemata.File.Tree
import Schemata.Snapshot
import Schemata.Command.Basic
import Schemata.Command.Generate
import Schemata.Command.Init
import Schemata.Command.Run
import Schemata.CommandLine.Reader
import Schemata.Main
import Schemata.Yaml.Directive
import Schemata.Proofs.FirstFault
import Schemata.Proofs.Resolution
import Schemata.Proofs.Assembly
import Schemata.Proofs.Acceptance
import Schemata.Proofs.Policies
import Schemata.Proofs.Views
import Schemata.Proofs.References
import Schemata.Proofs.Prisma.Lines
import Schemata.Proofs.Unresolved
import Schemata.Proofs.Prisma.Closure
import Schemata.Proofs.Prisma.FieldNames
import Schemata.Proofs.Prisma.Pairing
import Schemata.Proofs.Prisma.Reordering
import Schemata.Proofs.Columns
import Schemata.Proofs.Optionality
import Schemata.Proofs.Number.Intervals
import Schemata.Proofs.Number.Shortest
import Schemata.Proofs.Json.Numbers
import Schemata.Proofs.Json.Floats
import Schemata.Proofs.Json.Strings
import Schemata.Proofs.Json.Values
import Schemata.Proofs.Json.Distinct
import Schemata.Proofs.Records
import Schemata.Proofs.GraphCodec
import Schemata.Proofs.GraphText
import Schemata.Proofs.SchemaCodec
import Schemata.Proofs.Checksum
import Schemata.Proofs.TypeScript.Closure
import Schemata.Proofs.Defaults
import Schemata.Proofs.File.Frames
import Schemata.Proofs.Command.Effects
import Schemata.Proofs.Command.Generation
import Schemata.Proofs.Command.Initialization
import Schemata.Proofs.Provenance
import Schemata.Proofs.Repetition
import Schemata.Proofs.Findings
import Schemata.Proofs.Yaml.Places
import Schemata.Proofs.Yaml.Plain
import Schemata.Proofs.Yaml.Folded
import Schemata.Proofs.Yaml.Quoted
import Schemata.Proofs.Yaml.Steps
import Schemata.Proofs.Yaml.Entries
import Schemata.Proofs.Yaml.Scalars
import Schemata.Proofs.Yaml.Nodes
import Schemata.Proofs.ConfigText
import Schemata.Proofs.Insertion
import Schemata.Proofs.Unrelated
import Schemata.Proofs.Coherence
import Schemata.Proofs.Text.Lines
import Schemata.Proofs.Prisma.LineBreaks
import Schemata.Proofs.Indexes
import Schemata.Proofs.LengthHints
import Schemata.Proofs.Text.Literals
import Schemata.Proofs.Text.Forms
import Schemata.Proofs.TypeScript.Entries
