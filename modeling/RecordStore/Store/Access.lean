import RecordStore.Store

/-!
# Single operations

Creating, reading, counting, updating and deleting records. That nothing satisfies a query is no
error: such operations report zero records.
-/

namespace RecordStore

namespace Store

variable {B : Backend}

/-! ## Creating -/

/-- The record that a draft becomes now, with a new id. It is not inserted. -/
def newRecord (draft : Draft) (actor : Actor) : Action B Record := do
  let now ← Action.now
  return .ofDraft draft (← Action.freshId) now actor

def create (store : Store B) (drafts : List Draft) (actor : Actor) :
    Action B (List Record) := do
  let records ← drafts.mapM fun draft => newRecord draft actor
  unless records.isEmpty do
    store.insert records
  return records

/-! ## Reading -/

/-- A page of the records that satisfy a query. -/
def read (store : Store B) (request : ReadRequest) : Action B ReadResult := do
  let clause ← queryClause request.scope request.query request.includeDeleted
  let keys ← Effect.ofExcept (SortKey.ofItems request.sort)
  let slice ← Effect.ofExcept (Slice.ofPage request.page request.limit)
  let records ← store.find clause keys (some slice)
  return ⟨records, request.page, request.limit, records.length == request.limit.toNat⟩

def get? (store : Store B) (scope : Scope) (id : String) : Action B (Option Record) :=
  store.first? (.all [scope.clause false, .column .id (.eq (.string id))])

/-- The number of records that satisfy a query. -/
def count (store : Store B) (request : CountRequest) : Action B Nat := do
  store.countClause (← queryClause request.scope request.query request.includeDeleted)

/-! ## Updating and deleting -/

def updated (update : Value) (way : UpdateWay) (now : Instant) (actor : Actor) (r : Record) :
    Record :=
  { r with payload := r.payload.merge way update }.touch now actor

/-- Combines the records of a page with an update, and returns them. -/
def updatePage (store : Store B) (update : Value) (way : UpdateWay) (actor : Actor)
    (page : List Record) : Action B (List Record) := do
  let now ← Action.now
  let records := page.map (updated update way now actor)
  let _ ← store.replace records
  return records

/-- Combines an update with the live records that satisfy a query. -/
def update (store : Store B) (request : UpdateRequest) : Action B UpdateResult := do
  let base ← queryClause request.scope request.query false
  let batch := max 1 store.config.updateBatch
  let replacePage := store.updatePage request.update request.way request.actor
  let records ← store.walk base (fun _ => batch)
    (fun page done => return done ++ (← replacePage page)) []
  return ⟨records.length, records⟩

/-- Marks the live records that satisfy a query as deleted. -/
def delete (store : Store B) (request : DeleteRequest) : Action B DeleteResult := do
  let clause ← queryClause request.scope request.query false
  let now ← Action.now
  return ⟨← store.markDeleted clause ⟨request.date.getD now, request.actor⟩⟩

end Store

end RecordStore
