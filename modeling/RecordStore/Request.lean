import RecordStore.Error
import RecordStore.Merge
import RecordStore.Query.Wire

/-!
# Requests and results

What the operations of a store take and give. Requests address the records of one tag of one
application. A progress report tells how many records a batched operation has processed, of how
many, after each batch.
-/

namespace RecordStore

/-- The records of one tag of an application. -/
structure Scope where
  appId : String
  tag : String
deriving DecidableEq, Inhabited

/-- How many records have been processed, of how many. -/
structure Progress where
  processed : Nat
  total : Nat
deriving DecidableEq, Inhabited

/-- Reports as pairs of numbers. -/
def Progress.toValue (progress : Progress) : Value :=
  .array [.int progress.processed, .int progress.total]

/-! ## Reading -/

/-- The page size if none is asked for. -/
def defaultReadLimit : UInt64 := 20

/-- Asks for a page of records. -/
structure ReadRequest where
  scope : Scope
  query : Query
  sort : List SortItem
  page : UInt64
  limit : UInt64
  includeDeleted : Bool
deriving DecidableEq, Inhabited

/-- Asks for a number of records. -/
structure CountRequest where
  scope : Scope
  query : Query
  includeDeleted : Bool
deriving DecidableEq, Inhabited

/-- A page of records. -/
structure ReadResult where
  records : List Record
  page : UInt64
  limit : UInt64
  hasMore : Bool
deriving DecidableEq, Inhabited

namespace ReadRequest

/-- The first page of all live records in a scope. -/
def ofScope (scope : Scope) : ReadRequest := ⟨scope, .empty, [], 1, defaultReadLimit, false⟩

def toValue (request : ReadRequest) : Value :=
  .object [
    ("appId", .string request.scope.appId),
    ("includeDeleted", .bool request.includeDeleted),
    ("limit", .int request.limit.toNat),
    ("page", .int request.page.toNat),
    ("query", request.query.toValue),
    ("sort", .array (request.sort.map SortItem.toValue)),
    ("tag", .string request.scope.tag)]

def memberNames : List String :=
  ["appId", "tag", "query", "sort", "page", "limit", "includeDeleted"]

def ofValue? (v : Value) : Option ReadRequest := do
  let member ← Wire.members? memberNames false v
  some {
    scope := {
      appId := ← Wire.required Value.string? (member "appId")
      tag := ← Wire.required Value.string? (member "tag") }
    query := ← Wire.defaulted .empty Query.ofValue? (member "query")
    sort := ← Wire.defaulted [] (Wire.list? SortItem.ofValue?) (member "sort")
    page := ← Wire.required Wire.uint64? (member "page")
    limit := ← Wire.required Wire.uint64? (member "limit")
    includeDeleted := ← Wire.defaulted false Value.bool? (member "includeDeleted") }

end ReadRequest

namespace CountRequest

def toValue (request : CountRequest) : Value :=
  .object [
    ("appId", .string request.scope.appId),
    ("includeDeleted", .bool request.includeDeleted),
    ("query", request.query.toValue),
    ("tag", .string request.scope.tag)]

def ofValue? (v : Value) : Option CountRequest := do
  let member ← Wire.members? ["appId", "tag", "query", "includeDeleted"] false v
  some {
    scope := {
      appId := ← Wire.required Value.string? (member "appId")
      tag := ← Wire.required Value.string? (member "tag") }
    query := ← Wire.defaulted .empty Query.ofValue? (member "query")
    includeDeleted := ← Wire.defaulted false Value.bool? (member "includeDeleted") }

end CountRequest

namespace ReadResult

def toValue (result : ReadResult) : Value :=
  .object [
    ("hasMore", .bool result.hasMore),
    ("limit", .int result.limit.toNat),
    ("objs", .array (result.records.map Record.toValue)),
    ("page", .int result.page.toNat)]

def ofValue? (v : Value) : Option ReadResult := do
  let member ← Wire.members? ["objs", "page", "limit", "hasMore"] false v
  some {
    records := ← Wire.required (Wire.list? Record.ofValue?) (member "objs")
    page := ← Wire.required Wire.uint64? (member "page")
    limit := ← Wire.required Wire.uint64? (member "limit")
    hasMore := ← Wire.required Value.bool? (member "hasMore") }

end ReadResult

/-! ## Updating and deleting -/

/-- Asks to combine an update with all records that satisfy a query. -/
structure UpdateRequest where
  scope : Scope
  query : Query
  update : Value
  way : UpdateWay
  actor : Actor
deriving DecidableEq, Inhabited

/-- The records that an update has written. -/
structure UpdateResult where
  updatedCount : Nat
  updatedRecords : List Record
deriving DecidableEq, Inhabited

/-- Asks to mark all records that satisfy a query as deleted. -/
structure DeleteRequest where
  scope : Scope
  query : Query
  actor : Actor
  /-- The time of deletion if it is not the present. -/
  date : Option Instant
deriving DecidableEq, Inhabited

namespace UpdateResult

def toValue (result : UpdateResult) : Value :=
  .object [
    ("updatedCount", .int result.updatedCount),
    ("updatedObjs", .array (result.updatedRecords.map Record.toValue))]

def ofValue? (v : Value) : Option UpdateResult := do
  let member ← Wire.members? ["updatedCount", "updatedObjs"] false v
  some {
    updatedCount := ← Wire.required Wire.size? (member "updatedCount")
    updatedRecords := ← Wire.required (Wire.list? Record.ofValue?) (member "updatedObjs") }

end UpdateResult

/-- How many records a deletion has affected. -/
structure DeleteResult where
  deletedCount : Nat
deriving DecidableEq, Inhabited

namespace DeleteResult

def toValue (result : DeleteResult) : Value :=
  .object [("deletedCount", .int result.deletedCount)]

def ofValue? (v : Value) : Option DeleteResult := do
  let member ← Wire.members? ["deletedCount"] false v
  some ⟨← Wire.required Wire.size? (member "deletedCount")⟩

end DeleteResult

/-! ## Batched operations -/

/-- How an upsert finds existing records, and what it does with them. -/
structure UpsertOptions where
  /-- The payload paths whose values together identify a record. -/
  conflictKeys : List String
  onConflict : OnConflict
  /-- The batch size if it is not that of the configuration. -/
  batchSize : Option Nat
  actor : Actor
deriving DecidableEq, Inhabited

/-- An item that an upsert has refused. -/
structure FailedItem where
  item : Draft
  reason : String
deriving DecidableEq, Inhabited

/-- What has become of the items of an upsert. -/
structure UpsertResult where
  newRecords : List Record
  updatedRecords : List Record
  ignoredItems : List Draft
  failedItems : List FailedItem
  totalProcessed : Nat
deriving DecidableEq, Inhabited

namespace FailedItem

def toValue (failed : FailedItem) : Value :=
  .object [("item", failed.item.toValue), ("reason", .string failed.reason)]

def ofValue? (v : Value) : Option FailedItem := do
  let member ← Wire.members? ["item", "reason"] false v
  some {
    item := ← Wire.required Draft.ofValue? (member "item")
    reason := ← Wire.required Value.string? (member "reason") }

end FailedItem

namespace UpsertResult

/-- Nothing has been processed. -/
def empty : UpsertResult := ⟨[], [], [], [], 0⟩

def toValue (result : UpsertResult) : Value :=
  .object [
    ("failedItems", .array (result.failedItems.map FailedItem.toValue)),
    ("ignoredItems", .array (result.ignoredItems.map Draft.toValue)),
    ("newObjs", .array (result.newRecords.map Record.toValue)),
    ("totalProcessed", .int result.totalProcessed),
    ("updatedObjs", .array (result.updatedRecords.map Record.toValue))]

def memberNames : List String :=
  ["newObjs", "updatedObjs", "ignoredItems", "failedItems", "totalProcessed"]

def ofValue? (v : Value) : Option UpsertResult := do
  let member ← Wire.members? memberNames false v
  some {
    newRecords := ← Wire.required (Wire.list? Record.ofValue?) (member "newObjs")
    updatedRecords := ← Wire.required (Wire.list? Record.ofValue?) (member "updatedObjs")
    ignoredItems := ← Wire.required (Wire.list? Draft.ofValue?) (member "ignoredItems")
    failedItems := ← Wire.required (Wire.list? FailedItem.ofValue?) (member "failedItems")
    totalProcessed := ← Wire.required Wire.size? (member "totalProcessed") }

end UpsertResult

/-- Asks to combine an update with records that satisfy a query, batch by batch. -/
structure BulkUpdateRequest where
  scope : Scope
  query : Query
  update : Value
  way : UpdateWay
  actor : Actor
  /-- The most records to update. -/
  count : Option Nat
  /-- The batch size if it is not that of the configuration. -/
  batchSize : Option Nat
deriving DecidableEq, Inhabited

/-- How many records a batched update has written, of how many. -/
structure BulkUpdateResult where
  updatedCount : Nat
  /-- The records that satisfied the query at the start, but no more than were asked for. -/
  total : Nat
deriving DecidableEq, Inhabited

namespace BulkUpdateResult

def toValue (result : BulkUpdateResult) : Value :=
  .object [("total", .int result.total), ("updatedCount", .int result.updatedCount)]

def ofValue? (v : Value) : Option BulkUpdateResult := do
  let member ← Wire.members? ["updatedCount", "total"] false v
  some {
    updatedCount := ← Wire.required Wire.size? (member "updatedCount")
    total := ← Wire.required Wire.size? (member "total") }

end BulkUpdateResult

/-- Asks to delete records that satisfy a query, batch by batch. -/
structure BulkDeleteRequest where
  scope : Scope
  query : Query
  actor : Actor
  /-- Whether the records are removed and not only marked. -/
  hard : Bool
  /-- Whether more than the first record is deleted. -/
  many : Bool
  /-- The batch size if it is not that of the configuration. -/
  batchSize : Option Nat
deriving DecidableEq, Inhabited

/-- Asks to remove what is marked as deleted. -/
structure CleanupRequest where
  /-- The only application to clean up, if not all are. -/
  appId : Option String
  /-- The batch size if it is not that of the configuration. -/
  batchSize : Option Nat
deriving DecidableEq, Inhabited

end RecordStore
