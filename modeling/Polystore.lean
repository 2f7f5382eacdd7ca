import Polystore.Binding.Basic
import Polystore.Binding.Store
import Polystore.Binding.Table
import Polystore.Documents.Compile
import Polystore.Documents.Execution
import Polystore.Documents.Like
import Polystore.Documents.Predicate
import Polystore.Documents.Statement
import Polystore.Documents.Storing
import Polystore.Documents.Writing
import Polystore.Engine.Backend
import Polystore.Engine.Driver
import Polystore.Engine.Handle
import Polystore.Engine.Operations
import Polystore.Engine.Program
import Polystore.Engine.Propagation
import Polystore.Engine.Script
import Polystore.Engine.Transaction
import Polystore.Entries
import Polystore.Error
import Polystore.Instant
import Polystore.Json.Basic
import Polystore.Json.Reading
import Polystore.Model.Basic
import Polystore.Model.Entity
import Polystore.Model.PropertyType
import Polystore.Model.Reading
import Polystore.Model.Scope
import Polystore.Model.TypeRef
import Polystore.Model.View
import Polystore.Number.Double
import Polystore.Number.Reading
import Polystore.Number.Shortest
import Polystore.Payload.Basic
import Polystore.Payload.Capability
import Polystore.Proofs.Documents.Holding
import Polystore.Proofs.Documents.Matching
import Polystore.Proofs.Documents.Seeking
import Polystore.Proofs.Engine.Attempts
import Polystore.Proofs.Engine.Conduct
import Polystore.Proofs.Engine.Conforming
import Polystore.Proofs.Engine.Creations
import Polystore.Proofs.Engine.Nesting
import Polystore.Proofs.Engine.Planning
import Polystore.Proofs.Engine.Programs
import Polystore.Proofs.Engine.Rejection
import Polystore.Proofs.Engine.Stores
import Polystore.Proofs.Engine.Trace
import Polystore.Proofs.Entries
import Polystore.Proofs.Number.Bounds
import Polystore.Proofs.Number.Exact
import Polystore.Proofs.Number.Rounding
import Polystore.Proofs.Outcome
import Polystore.Proofs.Paging
import Polystore.Proofs.Query.Portable
import Polystore.Proofs.Query.WireForm
import Polystore.Proofs.SeekPages
import Polystore.Proofs.Sql.Clauses
import Polystore.Proofs.Sql.Markers
import Polystore.Proofs.Sql.Meaning
import Polystore.Proofs.Sql.Preparing
import Polystore.Proofs.Sql.Reading
import Polystore.Proofs.Sql.Rereading
import Polystore.Proofs.Sql.Scanning
import Polystore.Proofs.Sql.Seeking
import Polystore.Proofs.Sql.Shapes
import Polystore.Proofs.Sql.Where
import Polystore.Proofs.Truth
import Polystore.Proofs.Types.TypeIds
import Polystore.Proofs.Value.Paths
import Polystore.Proofs.Write.Boundaries
import Polystore.Proofs.Write.Overwriting
import Polystore.Query.Basic
import Polystore.Query.Build
import Polystore.Query.JsonPath
import Polystore.Query.Normalize
import Polystore.Query.Operator
import Polystore.Query.Validation
import Polystore.Query.Wire
import Polystore.Row
import Polystore.Settings.Basic
import Polystore.Settings.File
import Polystore.Settings.Variables
import Polystore.Sql.Compile
import Polystore.Sql.Dialect
import Polystore.Sql.Execution
import Polystore.Sql.Feature
import Polystore.Sql.Marker
import Polystore.Sql.Predicate
import Polystore.Sql.Prepare
import Polystore.Sql.Statement
import Polystore.Sql.Token
import Polystore.Tagged.Basic
import Polystore.Tagged.Call
import Polystore.Tagged.Notation
import Polystore.Tagged.Query
import Polystore.Tagged.Statement
import Polystore.Tagged.Value
import Polystore.Text.Basic
import Polystore.Text.Classes
import Polystore.Text.SnakeCase
import Polystore.Toml.Basic
import Polystore.Toml.Reading
import Polystore.Toml.Scalar
import Polystore.Types.Cache
import Polystore.Types.Scalar
import Polystore.Types.Table
import Polystore.Types.UserType
import Polystore.Uuid
import Polystore.Value.Basic
import Polystore.Value.Path
import Polystore.Write.Basic
import Polystore.Write.Planner
import Polystore.Proofs.Types.Conversion
import Polystore.Proofs.Documents.Properties
import Polystore.Proofs.Documents.ReadingBack
import Polystore.Proofs.Counting
import Polystore.Proofs.Query.Negation
import Polystore.Proofs.Sql.NativeConditions
import Polystore.Proofs.Types.ElementIds
import Polystore.Proofs.Documents.ArrayTests
import Polystore.Proofs.Query.Normalizing
import Polystore.Proofs.Sql.Unresolved
import Polystore.Proofs.Sql.Admission
import Polystore.Proofs.Sql.NativeJoints
import Polystore.Proofs.Sql.ResultColumns
import Polystore.Proofs.Value.Overlays
import Polystore.Proofs.Write.GeneratedKeys
import Polystore.Proofs.Documents.Upserting
import Polystore.Proofs.Engine.Batches
import Polystore.Proofs.Sql.MarkerSpans
import Polystore.Proofs.Sql.QuotedTexts
import Polystore.Proofs.Documents.EqualityTests
import Polystore.Proofs.Sql.PathLiterals
import Polystore.Proofs.Types.Lookups
import Polystore.Proofs.Query.Spellings
import Polystore.Proofs.Query.Overlooked
import Polystore.Proofs.Value.Equality
import Polystore.Proofs.Types.Settling
import Polystore.Proofs.Types.Integers
import Polystore.Proofs.Json.References
import Polystore.Proofs.Json.Strings
import Polystore.Proofs.Types.References
import Polystore.Proofs.Types.JsonColumns
import Polystore.Proofs.Types.MapKeys
import Polystore.Proofs.Types.ContainerTexts
import Polystore.Proofs.Documents.Patterns
import Polystore.Proofs.Model.Views
import Polystore.Proofs.Model.PropertyPaths
import Polystore.Proofs.Documents.WrittenPaths
import Polystore.Proofs.Binding.Registrations
import Polystore.Proofs.Json.Arranging
import Polystore.Proofs.Documents.NativeDocuments
import Polystore.Proofs.Sql.UsedColumns
