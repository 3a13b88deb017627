import VectorBridge.Connection
import VectorBridge.Settings.Profile
import VectorBridge.Milvus.Rest
import VectorBridge.Weaviate.Rest
import VectorBridge.Json.Reader
import VectorBridge.Batch
import VectorBridge.Identifier
import VectorBridge.Adapter.Call
import VectorBridge.Samples
import VectorBridge.Text.Upper
import VectorBridge.Page
import VectorBridge.Family
import VectorBridge.Chroma.Memory
import VectorBridge.Qdrant.Store
import VectorBridge.Postgres.Store
import VectorBridge.Milvus.Memory
import VectorBridge.Milvus.Store
import VectorBridge.Weaviate.Memory
import VectorBridge.Weaviate.Store
import VectorBridge.Columnar.Directory
import VectorBridge.Columnar.Store
import VectorBridge.Proofs.Chroma.Pushdown
import VectorBridge.Proofs.Postgres.Pushdown
import VectorBridge.Proofs.Qdrant.Pushdown
import VectorBridge.Proofs.Milvus.Pushdown
import VectorBridge.Proofs.Weaviate.Pushdown
import VectorBridge.Proofs.Step
import VectorBridge.Proofs.Session
import VectorBridge.Proofs.Keyed
import VectorBridge.Proofs.Catalog
import VectorBridge.Proofs.Drain
import VectorBridge.Proofs.Shelf
import VectorBridge.Proofs.Postgres.Tracking
import VectorBridge.Proofs.Postgres.Writing
import VectorBridge.Proofs.Postgres.Deleting
import VectorBridge.Proofs.Postgres.Refinement
import VectorBridge.Proofs.Family.Storage
import VectorBridge.Proofs.Family.Removal
import VectorBridge.Proofs.Family.Invariant
import VectorBridge.Proofs.Postgres.Storage
import VectorBridge.Proofs.Placing
import VectorBridge.Proofs.Chroma.Storage
import VectorBridge.Proofs.Identifier
import VectorBridge.Proofs.Weaviate.Storage
import VectorBridge.Proofs.Uuid
import VectorBridge.Proofs.Qdrant.Storage
import VectorBridge.Proofs.Number
import VectorBridge.Proofs.Milvus.Keys
import VectorBridge.Proofs.Milvus.Writing
import VectorBridge.Proofs.Milvus.Storage
import VectorBridge.Proofs.Adapter
import VectorBridge.Proofs.Columnar.Removal
import VectorBridge.Proofs.Connection.Holding
import VectorBridge.Proofs.Connection.Removal
import VectorBridge.Proofs.Json.Printing
import VectorBridge.Proofs.Batch
import VectorBridge.Proofs.Widening
import VectorBridge.Proofs.Family.ById
import VectorBridge.Proofs.Qdrant.ById
import VectorBridge.Proofs.Weaviate.ById
import VectorBridge.Proofs.Milvus.RoundTrip
import VectorBridge.Proofs.Connection.RoundTrip
import VectorBridge.Proofs.Ranking
import VectorBridge.Proofs.Columnar.Archive
import VectorBridge.Proofs.Columnar.Tables
import VectorBridge.Proofs.Columnar.Tracking
import VectorBridge.Proofs.Columnar.Listing
import VectorBridge.Proofs.Columnar.Writing
import VectorBridge.Proofs.Columnar.Refinement
import VectorBridge.Proofs.Milvus.ById
import VectorBridge.Proofs.Milvus.Overwriting
import VectorBridge.Proofs.Family.UuidKeyed
import VectorBridge.Proofs.Connection.UuidKeys
import VectorBridge.Proofs.Family.FirstItem
import VectorBridge.Proofs.Milvus.FirstItem
import VectorBridge.Proofs.Connection.FirstItem
import VectorBridge.Proofs.Page
import VectorBridge.Proofs.Qdrant.Walking
import VectorBridge.Proofs.Family.Search
import VectorBridge.Proofs.Columnar.Search
import VectorBridge.Proofs.Connection.Search
import VectorBridge.Proofs.Milvus.Search
import VectorBridge.Proofs.Family.Atomic
import VectorBridge.Proofs.Connection.Atomic
import VectorBridge.Proofs.Family.Again
import VectorBridge.Proofs.Milvus.Again
import VectorBridge.Proofs.Columnar.Again
import VectorBridge.Proofs.Connection.Again
import VectorBridge.Proofs.Number.Shortest
import VectorBridge.Proofs.Number.Text
import VectorBridge.Proofs.Json.Injective
import VectorBridge.Proofs.Freshness
import VectorBridge.Proofs.Family.Freshness
import VectorBridge.Proofs.Columnar.Freshness
import VectorBridge.Proofs.Connection.Freshness
import VectorBridge.Proofs.Family.Widths
import VectorBridge.Proofs.Chroma.Widths
import VectorBridge.Proofs.Family.Declaring
import VectorBridge.Proofs.Connection.DeclaredWidths
import VectorBridge.Proofs.Family.Names
import VectorBridge.Proofs.Family.Respelling
import VectorBridge.Proofs.Weaviate.Names
import VectorBridge.Proofs.Registry
import VectorBridge.Proofs.Batch.Updating
import VectorBridge.Proofs.Rows
import VectorBridge.Proofs.Connection.Reading
import VectorBridge.Proofs.Milvus.Rewriting
import VectorBridge.Proofs.Milvus.Updating
import VectorBridge.Proofs.Isolation
import VectorBridge.Proofs.Family.Isolation
import VectorBridge.Proofs.Columnar.Isolation
import VectorBridge.Proofs.Connection.Isolation
import VectorBridge.Proofs.Filter.Splitting
import VectorBridge.Proofs.Filter.Refusing
import VectorBridge.Proofs.Filter.Laws
import VectorBridge.Proofs.Number.Nearest
import VectorBridge.Proofs.Filter.Integers
import VectorBridge.Proofs.Postgres.Rendering
import VectorBridge.Proofs.Milvus.Text
import VectorBridge.Proofs.Rounds
import VectorBridge.Proofs.Family.Walking
import VectorBridge.Proofs.Milvus.Walking
import VectorBridge.Proofs.Weaviate.Walking
import VectorBridge.Proofs.Connection.Walking
import VectorBridge.Proofs.Http.Exchange
import VectorBridge.Proofs.Weaviate.Batches
import VectorBridge.Proofs.Url.Percent
import VectorBridge.Proofs.Url.Resolving
import VectorBridge.Proofs.Http.Addresses
import VectorBridge.Proofs.Columnar.Files
import VectorBridge.Proofs.BestFirst
import VectorBridge.Proofs.Listings
import VectorBridge.Proofs.Url.Address
import VectorBridge.Proofs.Url.Parts
import VectorBridge.Proofs.Url.Writing
import VectorBridge.Proofs.Settings.Address
import VectorBridge.Proofs.Settings.Missing
import VectorBridge.Postgres.Statement
import VectorBridge.Proofs.Postgres.Delimited
