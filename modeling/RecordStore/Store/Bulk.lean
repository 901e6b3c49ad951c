import RecordStore.Store.Access

/-!
# Batched operations

Updates, deletions and cleanups that run batch by batch in the order of ids and report their
progress after each batch. A record that a batch has written is never visited again, whether or not
it still satisfies the query.
-/

namespace RecordStore

structure CleanupResult where
  removedCount : Nat
  /-- The partitions of the catalog that had no records left. -/
  droppedPartitions : List Partition
deriving DecidableEq, Inhabited

/-- How far a batched operation has come: the records processed, and the reports so far. -/
structure BulkState where
  processed : Nat
  reports : List Progress
deriving DecidableEq, Inhabited

namespace BulkState

/-- Nothing has been processed. -/
def start : BulkState := ⟨0, []⟩

def advance (state : BulkState) (count total : Nat) : BulkState :=
  let processed := state.processed + count
  ⟨processed, state.reports ++ [⟨processed, total⟩]⟩

end BulkState

namespace Store

variable {B : Backend}

/-! ## Updating -/

/-- Combines an update with the live records that satisfy a query, as many as are asked for. -/
def bulkUpdate (store : Store B) (request : BulkUpdateRequest) :
    Action B (BulkUpdateResult × List Progress) := do
  let size ← Effect.ofExcept (batchSize request.batchSize store.config.updateBatch)
  let base ← queryClause request.scope request.query false
  let found ← store.countClause base
  let total := match request.count with
    | some count => min count found
    | none => found
  let final ← store.walk base (fun state => min size (total - state.processed))
    (fun page state => do
      let _ ← store.updatePage request.update request.way request.actor page
      return state.advance page.length total)
    BulkState.start
  return (⟨final.processed, total⟩, final.reports)

/-! ## Deleting -/

/-- Removes some records or marks them as deleted, and returns how many there were. -/
def deleteRecords (store : Store B) (records : List Record) (hard : Bool) (mark : DeletionMark) :
    Action B Nat :=
  let ids := records.map Record.id
  if records.isEmpty then pure 0
  else if hard then store.remove ids
  else store.markDeleted (.idIn ids) mark

/-- Deletes the live records that satisfy a query, or only the most recent of them. -/
def bulkDelete (store : Store B) (request : BulkDeleteRequest) :
    Action B (DeleteResult × List Progress) := do
  let size ← Effect.ofExcept (batchSize request.batchSize store.config.deleteBatch)
  let base ← queryClause request.scope request.query false
  let mark : DeletionMark := ⟨← Action.now, request.actor⟩
  if request.many then
    let total ← store.countClause base
    let final ← store.walk base (fun _ => size)
      (fun page state => return state.advance (← store.deleteRecords page request.hard mark) total)
      BulkState.start
    return (⟨final.processed⟩, final.reports)
  else
    let first ← store.first? base
    let count ← store.deleteRecords first.toList request.hard mark
    return (⟨count⟩, [⟨count, count⟩])

/-! ## Cleaning up -/

/-- The clause of the deleted records of an application, or of all. -/
def deletedClause (appId : Option String) : Clause :=
  .all (Clause.isNull .deletedAt false ::
    (appId.map fun id => Clause.column .appId (.eq (.string id))).toList)

/-- Removes the catalog rows of the partitions without records, among some partitions, and returns
these partitions. -/
def dropEmpty (store : Store B) : List Partition → Action B (List Partition)
  | [] => pure []
  | p :: rest => do
    if (← store.countClause (p.clause true)) = 0 then
      let _ ← Action.onStorage (B.catalog.deletePartition p)
      return p :: (← store.dropEmpty rest)
    else store.dropEmpty rest

/-- Removes records that are marked as deleted, and with the catalog also the partitions that have
no records left. -/
def cleanup (store : Store B) (request : CleanupRequest) (withCatalog : Bool) :
    Action B (CleanupResult × List Progress) := do
  let size ← Effect.ofExcept (batchSize request.batchSize store.config.cleanupBatch)
  let base := deletedClause request.appId
  let total ← store.countClause base
  let final ← store.walk base (fun _ => size)
    (fun page state => return state.advance (← store.remove (page.map Record.id)) total)
    BulkState.start
  let dropped ← if withCatalog then do
      store.dropEmpty (← Action.onStorage (B.catalog.partitions request.appId))
    else pure []
  return (⟨final.processed, dropped⟩, final.reports)

end Store

end RecordStore
