import RecordStore.Pieces
import RecordStore.Store.Access

/-!
# Upserts

An upsert takes drafts batch by batch. A draft whose values at the conflict keys are all present and
not null is looked up: first among the targets of its batch, then among the live records of its
partition, of which the most recent counts. What is found is combined with the draft or left alone,
as the policy says; every other draft becomes a record of its own. A batch writes its new records
and then the changed ones.
-/

namespace RecordStore

/-! ## Conflict keys -/

/-- Reads a conflict key, which has to name one value. -/
def conflictKey (raw : String) : Except StoreError Path := do
  let path ← Path.parse raw
  if path.hasWildcard then refuse (.wildcardKey raw) else return path

/-- The values of a draft at some conflict keys. There are none without keys, or if a value is
missing or null. -/
def Draft.keyValues? (draft : Draft) (keys : List Path) : Option (List Value) :=
  if keys.isEmpty then none
  else keys.mapM fun key => match key.get? draft.payload with
    | some .null => none
    | found => found

/-- What identifies a draft in its batch: a partition and the values at the conflict keys. -/
structure UpsertKey where
  partition : Partition
  values : List Value
deriving DecidableEq

def Draft.partition (draft : Draft) : Partition := ⟨draft.appId, draft.groupId, draft.tag⟩

/-- The clause of the live records that a key identifies. -/
def UpsertKey.clause (key : UpsertKey) (keys : List Path) : Clause :=
  let values := (keys.zip key.values).map fun (path, v) => Clause.payload path (.eq v)
  .all ([Scope.clause ⟨key.partition.appId, key.partition.tag⟩ false,
    .column .groupId (.eq (.string key.partition.groupId))] ++ values)

/-! ## Batches -/

/-- A record that a batch may write. -/
structure UpsertTarget where
  /-- What identifies the record in the batch, if anything does. -/
  key : Option UpsertKey
  record : Record
  isNew : Bool
  isChanged : Bool
deriving DecidableEq

/-- The state of a batch: its targets in the order in which they came up, and what has become of the
items so far. -/
structure UpsertBatch where
  targets : List UpsertTarget
  result : UpsertResult
deriving DecidableEq

namespace UpsertBatch

def push (batch : UpsertBatch) (target : UpsertTarget) : UpsertBatch :=
  { batch with targets := batch.targets ++ [target] }

def target? (batch : UpsertBatch) (key : UpsertKey) : Option UpsertTarget :=
  batch.targets.find? fun target => target.key = some key

def setTarget (batch : UpsertBatch) (key : UpsertKey) (target : UpsertTarget) : UpsertBatch :=
  { batch with
    targets := batch.targets.map fun other => if other.key = some key then target else other }

def ignore (batch : UpsertBatch) (draft : Draft) : UpsertBatch :=
  { batch with result :=
    { batch.result with ignoredItems := batch.result.ignoredItems ++ [draft] } }

/-- Reports an item as failed because of a record. -/
def fail (batch : UpsertBatch) (draft : Draft) (r : Record) : UpsertBatch :=
  let failed : FailedItem := ⟨draft, "conflicts with record " ++ r.id⟩
  { batch with result :=
    { batch.result with failedItems := batch.result.failedItems ++ [failed] } }

def newRecords (batch : UpsertBatch) : List Record :=
  (batch.targets.filter UpsertTarget.isNew).map UpsertTarget.record

def changedRecords (batch : UpsertBatch) : List Record :=
  (batch.targets.filter fun target => !target.isNew && target.isChanged).map UpsertTarget.record

end UpsertBatch

/-- A target combined with a draft. A new record keeps the marks of its creation. -/
def UpsertTarget.combine (target : UpsertTarget) (way : UpdateWay) (draft : Draft) (now : Instant)
    (actor : Actor) : UpsertTarget :=
  let merged := { target.record with payload := target.record.payload.merge way draft.payload }
  { target with
    record := if target.isNew then merged else merged.touch now actor
    isChanged := true }

namespace Store

variable {B : Backend}

/-- Adds the record of a draft to a batch. -/
def upsertNew (options : UpsertOptions) (key : Option UpsertKey) (draft : Draft)
    (batch : UpsertBatch) : Action B UpsertBatch := do
  let r ← newRecord draft options.actor
  return batch.push ⟨key, r, true, true⟩

/-- Deals with a draft that meets a target, as the policy says. -/
def upsertConflict (options : UpsertOptions) (key : UpsertKey) (target : UpsertTarget)
    (draft : Draft) (batch : UpsertBatch) : Action B UpsertBatch := do
  let now ← Action.now
  return match options.onConflict with
    | .combine way => batch.setTarget key (target.combine way draft now options.actor)
    | .ignore => batch.ignore draft
    | .fail => batch.fail draft target.record

def upsertItem (store : Store B) (options : UpsertOptions) (keys : List Path)
    (batch : UpsertBatch) (draft : Draft) : Action B UpsertBatch := do
  let result := { batch.result with totalProcessed := batch.result.totalProcessed + 1 }
  let batch := { batch with result := result }
  match draft.keyValues? keys with
  | none => upsertNew options none draft batch
  | some values =>
    let key : UpsertKey := ⟨draft.partition, values⟩
    match batch.target? key with
    | some target => upsertConflict options key target draft batch
    | none => match ← store.first? (key.clause keys) with
      | none => upsertNew options (some key) draft batch
      | some r =>
        let target : UpsertTarget := ⟨some key, r, false, false⟩
        upsertConflict options key target draft (batch.push target)

/-- Deals with the drafts of a batch, and writes what they have become. -/
def upsertBatch (store : Store B) (options : UpsertOptions) (keys : List Path)
    (result : UpsertResult) (drafts : List Draft) : Action B UpsertResult := do
  let batch ← drafts.foldlM (store.upsertItem options keys) ⟨[], result⟩
  unless batch.newRecords.isEmpty do
    store.insert batch.newRecords
  unless batch.changedRecords.isEmpty do
    let _ ← store.replace batch.changedRecords
  return { batch.result with
    newRecords := batch.result.newRecords ++ batch.newRecords
    updatedRecords := batch.result.updatedRecords ++ batch.changedRecords }

/-- Inserts drafts, or combines them with the records that they conflict with. -/
def upsert (store : Store B) (drafts : List Draft) (options : UpsertOptions) :
    Action B UpsertResult := do
  let keys ← Effect.ofExcept (options.conflictKeys.mapM conflictKey)
  let size ← Effect.ofExcept (batchSize options.batchSize store.config.upsertBatch)
  (pieces size drafts).foldlM (store.upsertBatch options keys) .empty

end Store

end RecordStore
