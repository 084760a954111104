import QueryFabric.Access
import QueryFabric.Access.Rights
import QueryFabric.Adapter
import QueryFabric.Bind.Binder
import QueryFabric.Bind.Columns
import QueryFabric.Bind.Induction
import QueryFabric.Bind.Inference
import QueryFabric.Bind.Names
import QueryFabric.Bind.Nested
import QueryFabric.Bind.Placeholders
import QueryFabric.Bind.Places
import QueryFabric.Bind.Query
import QueryFabric.Bind.References
import QueryFabric.Bind.Scope
import QueryFabric.Bind.Suggest
import QueryFabric.Bind.Uses
import QueryFabric.Bind.Validate
import QueryFabric.Bind.Widths
import QueryFabric.Catalog.BoundOccurrences
import QueryFabric.Catalog.Cost
import QueryFabric.Catalog.Documents
import QueryFabric.Catalog.Features
import QueryFabric.Catalog.Maps
import QueryFabric.Catalog.Memory
import QueryFabric.Catalog.Model
import QueryFabric.Catalog.Namespaces
import QueryFabric.Catalog.Occurrences
import QueryFabric.Catalog.Statistics
import QueryFabric.ClickHouse.ArrowSafe
import QueryFabric.ClickHouse.Cost
import QueryFabric.ClickHouse.CostRange
import QueryFabric.ClickHouse.Nested
import QueryFabric.ClickHouse.Rewrite
import QueryFabric.ClickHouse.Runtime
import QueryFabric.ClickHouse.Schemas
import QueryFabric.ClickHouse.Scope
import QueryFabric.ClickHouse.Typing
import QueryFabric.ClickHouse.Uses
import QueryFabric.ClickHouse.Wildcards
import QueryFabric.Cluster.Circuit
import QueryFabric.Cluster.Registry
import QueryFabric.Cluster.Routing
import QueryFabric.Compiler
import QueryFabric.ContentHash
import QueryFabric.Demo.Exactness
import QueryFabric.Demo.Export
import QueryFabric.Demo.Import
import QueryFabric.Demo.Parameters
import QueryFabric.Demo.Prepare
import QueryFabric.Demo.Query
import QueryFabric.Demo.Shown
import QueryFabric.Demo.Staging
import QueryFabric.Dialect.Ast
import QueryFabric.Dialect.Helpers
import QueryFabric.Dialect.Kept
import QueryFabric.Dialect.Lower
import QueryFabric.Dialect.NodeIds
import QueryFabric.Dialect.PlainTokens
import QueryFabric.Dialect.Preserves
import QueryFabric.Dialect.SourceMap
import QueryFabric.Dialect.Spans
import QueryFabric.Dialect.Syql
import QueryFabric.Federation.Announcements
import QueryFabric.Federation.Breakers
import QueryFabric.Federation.Registration
import QueryFabric.Federation.Rollout
import QueryFabric.Federation.Schema
import QueryFabric.Federation.Statements
import QueryFabric.Federation.System
import QueryFabric.Fetch
import QueryFabric.FlightPool
import QueryFabric.Inspect
import QueryFabric.Ir.Bound
import QueryFabric.Ir.Budget
import QueryFabric.Ir.Nested
import QueryFabric.Ir.Nodes
import QueryFabric.Ir.Outline
import QueryFabric.Ir.Parts
import QueryFabric.Ir.Query
import QueryFabric.Ir.Selects
import QueryFabric.Ir.Syntax
import QueryFabric.Ir.Types
import QueryFabric.Ir.Uses
import QueryFabric.Ir.Widening
import QueryFabric.JobQueue.Fifo
import QueryFabric.JobQueue.Recovery
import QueryFabric.JobQueue.Runner
import QueryFabric.JobQueue.Statuses
import QueryFabric.JobQueue.Storage
import QueryFabric.JobQueue.System
import QueryFabric.JobQueue.Waking
import QueryFabric.JsonParameters
import QueryFabric.K8s.Cleanup
import QueryFabric.K8s.CloneNames
import QueryFabric.K8s.Driver
import QueryFabric.K8s.Isolation
import QueryFabric.Lib.Aggregates
import QueryFabric.Lib.Bibtex
import QueryFabric.Lib.Delimited
import QueryFabric.Lib.EditDistance
import QueryFabric.Lib.Json
import QueryFabric.Lib.JsonNumber
import QueryFabric.Lib.Layers
import QueryFabric.Lib.Lines
import QueryFabric.Lib.Logs
import QueryFabric.Lib.Merge
import QueryFabric.Lib.Outcome
import QueryFabric.Lib.Paths
import QueryFabric.Lib.Ris
import QueryFabric.Lib.Runs
import QueryFabric.Lib.Saturating
import QueryFabric.Lib.StableSort
import QueryFabric.Lib.Substrings
import QueryFabric.Lib.Succeeds
import QueryFabric.Lib.Tracks
import QueryFabric.Lib.Utf8
import QueryFabric.Lib.Words
import QueryFabric.Lib.Yaml
import QueryFabric.Lib.Yields
import QueryFabric.Maps
import QueryFabric.NamespaceUuid
import QueryFabric.NamespaceUuid.Coords
import QueryFabric.Opt.Conjunction
import QueryFabric.Opt.Federation
import QueryFabric.Opt.Overrides
import QueryFabric.Opt.Passthrough
import QueryFabric.Opt.Relations
import QueryFabric.Opt.ScatterGather
import QueryFabric.Opt.Transform
import QueryFabric.Paseto.Separation
import QueryFabric.Paseto.Tokens
import QueryFabric.Portability.Acceptance
import QueryFabric.Portability.Bundle
import QueryFabric.Portability.BundleJson
import QueryFabric.Portability.Canonical
import QueryFabric.Portability.Citation
import QueryFabric.Portability.Documents
import QueryFabric.Portability.Grammar
import QueryFabric.Portability.Import
import QueryFabric.Portability.ImportRoundTrip
import QueryFabric.Portability.JsonReader
import QueryFabric.Portability.PlainReader
import QueryFabric.Portability.RoundTrip
import QueryFabric.Portability.Scalars
import QueryFabric.Portability.Serde
import QueryFabric.Portability.Tabular
import QueryFabric.Provenance
import QueryFabric.Release
import QueryFabric.Render.Analysis
import QueryFabric.Render.Emission
import QueryFabric.Render.Emit
import QueryFabric.Render.ExplicitNames
import QueryFabric.Render.Helpers
import QueryFabric.Render.Leaves
import QueryFabric.Render.Nesting
import QueryFabric.Render.Obligations
import QueryFabric.Render.Parameters
import QueryFabric.Render.Placeholders
import QueryFabric.Render.Qualifiers
import QueryFabric.Render.Quoting
import QueryFabric.Render.Resolution
import QueryFabric.Render.ResolvedNames
import QueryFabric.Render.Sources
import QueryFabric.Render.Tokens
import QueryFabric.Render.Written
import QueryFabric.Sql.Closed
import QueryFabric.Sql.Dialects
import QueryFabric.Sql.Lexer
import QueryFabric.Sql.Nesting
import QueryFabric.Sql.Pieces
import QueryFabric.Sql.Reading
import QueryFabric.Sql.Tokenizer
import QueryFabric.Text
import QueryFabric.Worker.Service
import QueryFabric.Worker.Ticket
