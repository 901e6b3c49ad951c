import RecordStore.Backend.Table
import RecordStore.Catalog.Memory
import RecordStore.Catalog.Relational
import RecordStore.Config.Environment
import RecordStore.Config.File
import RecordStore.Dialect
import RecordStore.Document.Request
import RecordStore.Operation
import RecordStore.Value.Reader
import RecordStore.Proofs.Pattern.Literal
import RecordStore.Proofs.Payload.Meaning
import RecordStore.Proofs.Value.Order
import RecordStore.Proofs.Document.Expression
import RecordStore.Proofs.Document.Payload
import RecordStore.Proofs.Double.Exact
import RecordStore.Proofs.Numeral.Short
import RecordStore.Proofs.Value.Plain
import RecordStore.Proofs.Value.Text
import RecordStore.Proofs.Value.Equality
import RecordStore.Proofs.Sql.Logic
import RecordStore.Proofs.Sql.Operand
import RecordStore.Proofs.Sql.Payload
import RecordStore.Proofs.Document.Field
import RecordStore.Proofs.Document.Clause
import RecordStore.Proofs.Sql.Attribute
import RecordStore.Proofs.Agreement
import RecordStore.Proofs.Keyed
import RecordStore.Proofs.Backend.Collection
import RecordStore.Proofs.Effect
import RecordStore.Proofs.Store
import RecordStore.Proofs.Store.Walk
import RecordStore.Proofs.Store.Update
import RecordStore.Proofs.Backend.Evolution
import RecordStore.Proofs.Store.Evolution
import RecordStore.Proofs.Store.Access
import RecordStore.Proofs.Store.Upsert
import RecordStore.Proofs.Record
import RecordStore.Proofs.Lifecycle
import RecordStore.Proofs.Isolation
import RecordStore.Proofs.Upsert.Fold
import RecordStore.Proofs.Upsert.Unique
import RecordStore.Proofs.Transaction.Atomic
import RecordStore.Proofs.Transaction.Insertion
import RecordStore.Proofs.Upsert.Account
import RecordStore.Proofs.Upsert.Again
import RecordStore.Proofs.Completeness
import RecordStore.Proofs.Document.Order
import RecordStore.Proofs.Document.Preorder
import RecordStore.Proofs.Stable
import RecordStore.Proofs.Pages
import RecordStore.Proofs.Query.Meaning
import RecordStore.Proofs.Path.Text
import RecordStore.Proofs.Payload.Leaves
import RecordStore.Proofs.Payload.Pathwise
import RecordStore.Proofs.Payload.Idempotent
import RecordStore.Proofs.Store.MergedOnce
import RecordStore.Proofs.Queryable
import RecordStore.Proofs.Document.Traversal
import RecordStore.Proofs.Existence
import RecordStore.Proofs.Catalog.Map
import RecordStore.Proofs.Catalog.Growth
import RecordStore.Proofs.Catalog.Stored
import RecordStore.Proofs.Catalog.Mirror
import RecordStore.Proofs.Catalog.Calls
import RecordStore.Proofs.Catalog.Repeat
import RecordStore.Proofs.Catalog.Confluence
import RecordStore.Proofs.Store.Batches
import RecordStore.Proofs.Sql.Order
import RecordStore.Proofs.Sql.Statement
import RecordStore.Proofs.Sortable
import RecordStore.Proofs.Sorting
import RecordStore.Proofs.Query.Wire
import RecordStore.Proofs.Store.Deletion
import RecordStore.Proofs.Store.Refusal
import RecordStore.Proofs.Store.Removal
import RecordStore.Proofs.Query.Shape
import RecordStore.Proofs.Sql.Text
import RecordStore.Proofs.Sql.Page
import RecordStore.Proofs.Sql.Decided
import RecordStore.Proofs.Query.Acceptance
import RecordStore.Proofs.Dialect
import RecordStore.Proofs.Sql.Placeholder
import RecordStore.Proofs.Path.Lookup
import RecordStore.Proofs.Path.Grammar
import RecordStore.Proofs.Query.Family
import RecordStore.Proofs.Query.Duration
