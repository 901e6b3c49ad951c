import RecordStore.PayloadIndex
import RecordStore.Store

/-!
# Indexing

An indexing run looks at the live records that are to be indexed and have been updated since some
instant, and folds the descriptors of their payloads into the catalog, page by page and partition by
partition. A job repeats such runs: each starts from the instant at which the last successful one
has started.
-/

namespace RecordStore

/-- What an indexing run has done. -/
structure IndexStats where
  startedAt : Instant
  recordsIndexed : Nat
  fieldsWritten : Nat
  /-- How many partitions have been written to. -/
  partitions : Nat
deriving DecidableEq, Inhabited

/-- The descriptors of a record's payload at the paths that are to be indexed. -/
def Record.descriptors (r : Record) (settings : IndexSettings) : List Descriptor :=
  let all := r.payload.index
  Keyed.values (match settings.fieldsFor r with
    | some allowed => restrict allowed all
    | none => all)

/-- The different descriptors of some records by partition, in the order of their first
occurrence. -/
def descriptorsByPartition (settings : IndexSettings) (records : List Record) :
    List (Partition × List Descriptor) :=
  let partitions := Keyed.keys (Keyed.ofList (records.map fun r => (Partition.ofRecord r, ())))
  partitions.map fun p =>
    let members := records.filter fun r => Partition.ofRecord r = p
    (p, (members.flatMap fun r => r.descriptors settings).eraseDups)

/-- How far an indexing run has come. -/
structure IndexState where
  recordsIndexed : Nat
  fieldsWritten : Nat
  seen : List Partition
deriving DecidableEq, Inhabited

namespace Store

variable {B : Backend}

/-- The clause of the live records that are to be indexed and updated since an instant. -/
def indexClause (since : Option Instant) : Clause :=
  .all ([Clause.column .shouldIndex (.eq (.bool true)), Clause.isNull .deletedAt true] ++
    (since.map fun t =>
      Clause.column .updatedAt (.compare .gte (.finite (Double.ofInt t.toInt)))).toList)

/-- Folds the descriptors of a partition into the catalog. -/
def indexPartition (state : IndexState) (entry : Partition × List Descriptor) :
    Action B IndexState := do
  let (p, descriptors) := entry
  if descriptors.isEmpty then return state
  else
    let now ← Action.now
    let rows ← Action.onStorage (B.catalog.upsert p descriptors now)
    return { state with
      fieldsWritten := state.fieldsWritten + rows.length
      seen := if state.seen.contains p then state.seen else state.seen ++ [p] }

/-- Folds the descriptors of a page of records into the catalog. -/
def indexPage (settings : IndexSettings) (page : List Record) (state : IndexState) :
    Action B IndexState := do
  let state ← (descriptorsByPartition settings page).foldlM indexPartition state
  return { state with recordsIndexed := state.recordsIndexed + page.length }

/-- Indexes the records updated since an instant, or all. -/
def index (store : Store B) (since : Option Instant) (settings : IndexSettings) :
    Action B IndexStats := do
  let size := store.config.indexBatch
  if size = 0 then Effect.ofExcept (refuse .zeroIndexBatch)
  else
    let startedAt ← Action.now
    let final ← store.walk (indexClause since) (fun _ => size) (indexPage settings) ⟨0, 0, []⟩
    return ⟨startedAt, final.recordsIndexed, final.fieldsWritten, final.seen.length⟩

end Store

namespace IndexingJob

variable {B : Backend}

def new (store : Store B) (settings : IndexSettings) : IndexingJob B := ⟨store, settings, none⟩

/-- Runs the job once. A failed run leaves the job as it is, so that the next one repeats it. -/
def run (job : IndexingJob B) :
    StateM (World B) (Except StoreError IndexStats × IndexingJob B) := do
  match ← (job.store.index job.lastSuccessAt job.settings : Action B IndexStats).run with
  | .ok stats => return (.ok stats, { job with lastSuccessAt := some stats.startedAt })
  | .error e => return (.error e, job)

end IndexingJob

end RecordStore
