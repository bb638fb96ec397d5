import RecordGraph.Cli.Arguments
import RecordGraph.Cli.Help
import RecordGraph.Cli.Run
import RecordGraph.Compiler.Basic
import RecordGraph.Compiler.Edges
import RecordGraph.Compiler.Identity
import RecordGraph.Compiler.Related
import RecordGraph.Compiler.Settings
import RecordGraph.Config.Execution
import RecordGraph.Config.File
import RecordGraph.Config.Json
import RecordGraph.Config.Setting
import RecordGraph.Config.Sink
import RecordGraph.Config.Yaml
import RecordGraph.Dialect.Execution
import RecordGraph.Dialect.Parser
import RecordGraph.Dialect.Scan
import RecordGraph.Dialect.Statement
import RecordGraph.Dict
import RecordGraph.Graph.Element
import RecordGraph.Graph.Json
import RecordGraph.Graph.Property
import RecordGraph.Graph.Store
import RecordGraph.Json.Basic
import RecordGraph.Json.Fields
import RecordGraph.Json.Numeral
import RecordGraph.Json.Reader
import RecordGraph.Json.Writer
import RecordGraph.Json.Written
import RecordGraph.Main
import RecordGraph.Number.Binary
import RecordGraph.Number.Decimal
import RecordGraph.Number.Digits
import RecordGraph.Number.Shortest
import RecordGraph.Proofs.AddressableNode
import RecordGraph.Proofs.Agreement
import RecordGraph.Proofs.AgreementLaws
import RecordGraph.Proofs.AlignedMatches
import RecordGraph.Proofs.Assignments
import RecordGraph.Proofs.AuthoredRelations
import RecordGraph.Proofs.BranchAgreement
import RecordGraph.Proofs.BuiltRecords
import RecordGraph.Proofs.ClauseTexts
import RecordGraph.Proofs.Clauses
import RecordGraph.Proofs.CompiledExecution
import RecordGraph.Proofs.CreateStatement
import RecordGraph.Proofs.Decimals
import RecordGraph.Proofs.DecodedRecords
import RecordGraph.Proofs.DecodedValues
import RecordGraph.Proofs.DictEntries
import RecordGraph.Proofs.DistinctEdges
import RecordGraph.Proofs.DistinctKeys
import RecordGraph.Proofs.ExistingNode
import RecordGraph.Proofs.FailedUpsert
import RecordGraph.Proofs.FlatBatches
import RecordGraph.Proofs.FlatRecords
import RecordGraph.Proofs.HeldErrors
import RecordGraph.Proofs.InconsistencyOrigins
import RecordGraph.Proofs.IndependentUpserts
import RecordGraph.Proofs.JsonText
import RecordGraph.Proofs.JsonTokens
import RecordGraph.Proofs.KeyStatements
import RecordGraph.Proofs.KeyUniqueness
import RecordGraph.Proofs.KeyedStore
import RecordGraph.Proofs.Layouts
import RecordGraph.Proofs.Links
import RecordGraph.Proofs.MatchedRows
import RecordGraph.Proofs.Matching
import RecordGraph.Proofs.MergedNode
import RecordGraph.Proofs.MissingNode
import RecordGraph.Proofs.MissingReferences
import RecordGraph.Proofs.NewNode
import RecordGraph.Proofs.Operations
import RecordGraph.Proofs.ParsedValues
import RecordGraph.Proofs.Patterns
import RecordGraph.Proofs.PropertyJson
import RecordGraph.Proofs.QuotedTokens
import RecordGraph.Proofs.Reading
import RecordGraph.Proofs.RecordFields
import RecordGraph.Proofs.RejectedStatements
import RecordGraph.Proofs.RelatedErrors
import RecordGraph.Proofs.RelationTexts
import RecordGraph.Proofs.RepeatedMerge
import RecordGraph.Proofs.RepeatedUpsert
import RecordGraph.Proofs.Results
import RecordGraph.Proofs.Rounding
import RecordGraph.Proofs.Scanning
import RecordGraph.Proofs.SchemaForms
import RecordGraph.Proofs.Scoping
import RecordGraph.Proofs.SettingsRoundTrip
import RecordGraph.Proofs.Splitting
import RecordGraph.Proofs.Statistics
import RecordGraph.Proofs.StoreInvariant
import RecordGraph.Proofs.Stored
import RecordGraph.Proofs.SuccessfulUpsert
import RecordGraph.Proofs.Tokens
import RecordGraph.Proofs.UpdateStatement
import RecordGraph.Proofs.UpsertEffects
import RecordGraph.Proofs.UpsertOnGraph
import RecordGraph.Proofs.ValidatedRelations
import RecordGraph.Proofs.WholeNumbers
import RecordGraph.Proofs.WrittenBatches
import RecordGraph.Record.Basic
import RecordGraph.Record.Builder
import RecordGraph.Record.Json
import RecordGraph.Relation.Basic
import RecordGraph.Relation.Text
import RecordGraph.Relation.Wire
import RecordGraph.Schema.Basic
import RecordGraph.Schema.Json
import RecordGraph.Session.Basic
import RecordGraph.Session.Memory
import RecordGraph.Session.Traced
import RecordGraph.Shape.Basic
import RecordGraph.Shape.Layout
import RecordGraph.Slots
import RecordGraph.Statement.Assembly
import RecordGraph.Statement.Literal
import RecordGraph.Statement.Quoted
import RecordGraph.Text.Blank
import RecordGraph.Text.CaseTable
import RecordGraph.Text.Lowercase
import RecordGraph.Text.Split
import RecordGraph.Text.Table
import RecordGraph.Text.Width
import RecordGraph.Text.WidthTable
import RecordGraph.Upsert.Basic
import RecordGraph.Upsert.Writer
import RecordGraph.Yaml.BlockScalar
import RecordGraph.Yaml.Cursor
import RecordGraph.Yaml.Document
import RecordGraph.Yaml.Node
import RecordGraph.Yaml.Plain
import RecordGraph.Yaml.Quoted
import RecordGraph.Yaml.Scalar
import RecordGraph.Yaml.Tag
import RecordGraph.Yaml.Token
import RecordGraph.Yaml.Token.Lexer
import RecordGraph.Yaml.Tree
