import AvroCodegen.Command
import AvroCodegen.CommandLine
import AvroCodegen.Convert.Converter
import AvroCodegen.Convert.Token
import AvroCodegen.Decimal.Exact
import AvroCodegen.Decimal.Layout
import AvroCodegen.Decimal.Nearest
import AvroCodegen.Decimal.Shortest
import AvroCodegen.Definition
import AvroCodegen.Definition.Reader
import AvroCodegen.Dependency
import AvroCodegen.Digest
import AvroCodegen.Entity.Basic
import AvroCodegen.Entity.Build
import AvroCodegen.Entity.Closure
import AvroCodegen.Entity.Expansion
import AvroCodegen.Fault
import AvroCodegen.FieldType
import AvroCodegen.FileTree
import AvroCodegen.Generator.Basic
import AvroCodegen.Generator.Output
import AvroCodegen.Generator.Registry
import AvroCodegen.Generator.Role
import AvroCodegen.Generator.Run
import AvroCodegen.Graph.Basic
import AvroCodegen.Graph.Picture
import AvroCodegen.Graph.Scope
import AvroCodegen.Json.Basic
import AvroCodegen.Json.Reader
import AvroCodegen.Json.Writer
import AvroCodegen.Keyed
import AvroCodegen.Path
import AvroCodegen.Production
import AvroCodegen.Schema.Basic
import AvroCodegen.Schema.Files
import AvroCodegen.Schema.Reader
import AvroCodegen.Settings
import AvroCodegen.Template.Argument
import AvroCodegen.Template.Basic
import AvroCodegen.Template.Builtin
import AvroCodegen.Template.Engine
import AvroCodegen.Template.Evaluation
import AvroCodegen.Template.Filter
import AvroCodegen.Template.Markup
import AvroCodegen.Template.ModelFilter
import AvroCodegen.Template.Operator
import AvroCodegen.Template.Order
import AvroCodegen.Template.Reader
import AvroCodegen.Template.Rendering
import AvroCodegen.Template.Segment
import AvroCodegen.Template.Set
import AvroCodegen.Template.Value
import AvroCodegen.Template.View
import AvroCodegen.Text.Blank
import AvroCodegen.Text.Case
import AvroCodegen.Text.CaseTable
import AvroCodegen.Text.CasedTable
import AvroCodegen.Text.Digit
import AvroCodegen.Text.HiddenTable
import AvroCodegen.Text.Identifier
import AvroCodegen.Text.Quoted
import AvroCodegen.Toml.Basic
import AvroCodegen.Toml.Moment
import AvroCodegen.Toml.Number
import AvroCodegen.Toml.Reader
import AvroCodegen.Toml.Text
import AvroCodegen.Yaml.Basic
import AvroCodegen.Yaml.Document
import AvroCodegen.Yaml.Glyph
import AvroCodegen.Yaml.Reading
import AvroCodegen.Yaml.Scalar
import AvroCodegen.Yaml.Token
import AvroCodegen.Yaml.Token.Lexer
import AvroCodegen.Main
import AvroCodegen.Proofs.DependencyOrder
import AvroCodegen.Proofs.SchemaReading
import AvroCodegen.Proofs.GraphGrowth
import AvroCodegen.Proofs.StoreRelations
import AvroCodegen.Proofs.BoundedClosures
import AvroCodegen.Proofs.ScopeOfWork
import AvroCodegen.Proofs.Declarations
import AvroCodegen.Proofs.KeyOrder
import AvroCodegen.Proofs.PrimaryKeys
import AvroCodegen.Proofs.Ownership
import AvroCodegen.Proofs.SourceOrder
import AvroCodegen.Proofs.RunCoverage
import AvroCodegen.Proofs.RunEffects
import AvroCodegen.Proofs.WalkingAnew
import AvroCodegen.Proofs.ScopeMembers
import AvroCodegen.Proofs.RoleFacts
import AvroCodegen.Proofs.AttributePrecedence
import AvroCodegen.Proofs.Overriding
import AvroCodegen.Proofs.TokenWidths
import AvroCodegen.Proofs.CheckedDefinitions
import AvroCodegen.Proofs.FilePlaces
import AvroCodegen.Proofs.SharedPlaces
import AvroCodegen.Proofs.Unfolding
import AvroCodegen.Proofs.ExpansionForms
import AvroCodegen.Proofs.Spans
import AvroCodegen.Proofs.FlatNames
import AvroCodegen.Proofs.KeyedRelations
import AvroCodegen.Proofs.ReaderHistory
import AvroCodegen.Proofs.NameScopes
import AvroCodegen.Proofs.RootMarks
import AvroCodegen.Proofs.IdentifierSpellings
import AvroCodegen.Proofs.NestedTokens
import AvroCodegen.Proofs.PictureIds
import AvroCodegen.Proofs.EdgeKinds
import AvroCodegen.Proofs.CommandWords
